import Hyperslab.Config
import Hyperslab.Proofs.Letters
import Hyperslab.Proofs.Run

/-!
# Configured devices

A device is documented as one of a few names, some of them with a number behind a colon.  Every
documented text is brought to its meaning, and all that is accepted besides starts like one of
them.  What normalizing gives is in one form already: blanks and capitals are gone, an alias does
not become another, and the switches are switches; so it is normalized to itself.
-/

namespace Hyperslab
namespace Device

/-! ## Texts in one form -/

/-- A text without blanks around it and in small letters. -/
def plain (text : List Char) : List Char := Text.lower (Text.trim text)

/-- What a plain text is brought to. -/
def unalias (device : List Char) : List Char :=
  if device.isEmpty then "auto".toList
  else if device = "gpu".toList then cudaName
  else if "gpu:".toList.isPrefixOf device then cudaName ++ device.drop 3
  else if "mps".toList.isPrefixOf device then "mps".toList
  else device

theorem spelling_eq (text : List Char) : spelling text = unalias (plain text) := rfl

/-- A text that is plain already. -/
structure Plain (device : List Char) : Prop where
  trimmed : Text.Trimmed Text.isBlank device
  lowered : ∀ c ∈ device, Text.lowerChar c = [c]

theorem plain_plain (text : List Char) : Plain (plain text) where
  trimmed := Text.trimmed_lower (Text.trimmed_trimWhile text)
  lowered _ := Text.lowerChar_of_mem_lower

theorem Plain.plain_eq {device : List Char} (h : Plain device) : plain device = device := by
  rw [plain, Text.trim, Text.trimWhile_eq_self h.trimmed, Text.lower_eq_self h.lowered]

/-! ## Documented devices -/

/-- Behind a name stands nothing, or a colon and at least one digit. -/
inductive Suffix : List Char → Prop where
  | none : Suffix []
  | number {digits : List Char} : digits ≠ [] → digits.all isDigit → Suffix (':' :: digits)

/-- The documented texts and their meanings. -/
inductive Means : List Char → List Char → Prop where
  | empty : Means [] "auto".toList
  | auto : Means "auto".toList "auto".toList
  | cpu : Means "cpu".toList "cpu".toList
  | mps {suffix : List Char} : Suffix suffix → Means ("mps".toList ++ suffix) "mps".toList
  | cuda {suffix : List Char} :
      Suffix suffix → Means ("cuda".toList ++ suffix) ("cuda".toList ++ suffix)
  | gpu {suffix : List Char} :
      Suffix suffix → Means ("gpu".toList ++ suffix) ("cuda".toList ++ suffix)

/-- A text starts like a documented one and goes on otherwise. -/
def Stray (device : List Char) : Prop :=
  ("cuda".toList <+: device ∨ "mps".toList <+: device ∨ "gpu:".toList <+: device) ∧
    ∀ meaning, ¬ Means device meaning

variable {device meaning : List Char}

theorem unalias_of_means (h : Means device meaning) : unalias device = meaning := by
  cases h with
  | empty | auto | cpu | mps _ | cuda _ => rfl
  | gpu hsuffix => cases hsuffix <;> rfl

/-- A name that a number may follow is not followed by anything else. -/
theorem not_means_append {name suffix : List Char}
    (hname : name ∈ ["mps".toList, "cuda".toList, "gpu".toList]) (h : ¬ Suffix suffix)
    (meaning : List Char) : ¬ Means (name ++ suffix) meaning := by
  intro hmeans
  generalize hdevice : name ++ suffix = device at hmeans
  simp only [List.mem_cons, List.not_mem_nil, or_false] at hname
  rcases hname with rfl | rfl | rfl <;> cases hmeans <;> simp at hdevice
  all_goals exact h (hdevice ▸ ‹Suffix _›)

/-! ## Accepted devices -/

/-- A spelling that is accepted: one of three names, or any text that starts with the fourth. -/
def Accepted (device : List Char) : Prop :=
  device = "auto".toList ∨ device = "cpu".toList ∨ device = "mps".toList ∨ cudaName <+: device

theorem accepted_of_means (h : Means device meaning) : Accepted meaning := by
  cases h with
  | empty | auto => exact .inl rfl
  | cpu => exact .inr (.inl rfl)
  | mps _ => exact .inr (.inr (.inl rfl))
  | cuda _ | gpu _ => exact .inr (.inr (.inr (List.prefix_append _ _)))

/-- What is accepted is documented or starts like it. -/
theorem accepted_unalias_iff :
    Accepted (unalias device) ↔ (∃ meaning, Means device meaning) ∨ Stray device := by
  constructor
  · intro h
    by_cases hmeans : ∃ meaning, Means device meaning
    · exact .inl hmeans
    refine .inr ⟨?_, not_exists.mp hmeans⟩
    unfold unalias at h
    split_ifs at h with hempty hgpu hnumber hmps
    · obtain rfl := List.isEmpty_iff.mp hempty
      exact absurd ⟨_, .empty⟩ hmeans
    · subst hgpu
      exact absurd ⟨_, .gpu .none⟩ hmeans
    · exact .inr (.inr (List.isPrefixOf_iff_prefix.mp hnumber))
    · exact .inr (.inl (List.isPrefixOf_iff_prefix.mp hmps))
    · rcases h with rfl | rfl | rfl | hcuda
      · exact absurd ⟨_, .auto⟩ hmeans
      · exact absurd ⟨_, .cpu⟩ hmeans
      · exact absurd rfl hmps
      · exact .inl hcuda
  · rintro (⟨meaning, hmeans⟩ | ⟨hstart, -⟩)
    · rw [unalias_of_means hmeans]
      exact accepted_of_means hmeans
    · rcases hstart with ⟨rest, rfl⟩ | ⟨rest, rfl⟩ | ⟨rest, rfl⟩
      · exact .inr (.inr (.inr (List.prefix_append _ _)))
      · exact .inr (.inr (.inl rfl))
      · exact .inr (.inr (.inr (List.prefix_append _ _)))

theorem isAccepted_iff : (["auto", "cpu", "mps"].contains (String.ofList device) ||
    cudaName.isPrefixOf device) = true ↔ Accepted device := by
  have hname : ∀ name : String, String.ofList device = name ↔ device = name.toList := fun name => by
    rw [← String.toList_inj, String.toList_ofList]
  simp [Accepted, hname, or_assoc]

theorem normalize_eq_ok {text : String} (h : Accepted (spelling text.toList)) :
    normalize text = .ok (String.ofList (spelling text.toList)) :=
  if_pos (isAccepted_iff.mpr h)

theorem normalize_eq_error {text : String} (h : ¬ Accepted (spelling text.toList)) :
    normalize text = .error (.configDevice text) :=
  if_neg (mt isAccepted_iff.mp h)

/-! ## Normalizing once more -/

theorem small_of_mem_name {name : String} (hname : name ∈ ["auto", "cuda", "mps"]) :
    ∀ c ∈ name.toList, Text.Small c := by
  have hnames : (["auto", "cuda", "mps"].all fun name => name.toList.all fun c =>
      decide (Text.lowerChar c = [c]) && !Text.isBlank c) = true := by decide
  intro c hc
  have hsmall := List.all_eq_true.mp (List.all_eq_true.mp hnames name hname) c hc
  rw [Bool.and_eq_true, decide_eq_true_eq, Bool.not_eq_true'] at hsmall
  exact ⟨hsmall.1, hsmall.2⟩

theorem plain_of_small (h : ∀ c ∈ device, Text.Small c) : Plain device :=
  ⟨Text.trimmed_of_forall fun c hc => (h c hc).not_blank, fun c hc => (h c hc).lowered⟩

theorem plain_unalias (h : Plain device) : Plain (unalias device) := by
  unfold unalias
  split_ifs with hempty hgpu hnumber hmps
  · exact plain_of_small (@small_of_mem_name "auto" (by decide))
  · exact plain_of_small (@small_of_mem_name "cuda" (by decide))
  · -- The colon stays, so the last character is the one that it was.
    obtain ⟨rest, rfl⟩ := List.isPrefixOf_iff_prefix.mp hnumber
    have hdrop : ("gpu:".toList ++ rest).drop 3 = ':' :: rest := rfl
    have hlast : ("gpu:".toList ++ rest).getLast? = (':' :: rest).getLast? :=
      List.getLast?_append_of_ne_nil "gpu".toList (List.cons_ne_nil ':' rest)
    refine ⟨⟨fun c hc => ?_, fun c hc => h.trimmed.last c ?_⟩, fun c hc => ?_⟩
    · obtain rfl : 'c' = c := Option.some.inj hc
      decide
    · rw [hlast]
      rwa [hdrop, List.getLast?_append_of_ne_nil _ (List.cons_ne_nil _ _)] at hc
    · rcases List.mem_append.mp hc with hc | hc
      · exact (@small_of_mem_name "cuda" (by decide) c hc).lowered
      · exact h.lowered c (List.mem_of_mem_drop hc)
  · exact plain_of_small (@small_of_mem_name "mps" (by decide))
  · exact h

theorem unalias_of_accepted (h : Accepted device) : unalias device = device := by
  rcases h with rfl | rfl | rfl | ⟨rest, rfl⟩ <;> rfl

/-- A device that was accepted is accepted again as it is. -/
theorem normalize_of_normalize {text device : String} (h : normalize text = .ok device) :
    normalize device = .ok device := by
  by_cases haccepted : Accepted (spelling text.toList)
  · rw [normalize_eq_ok haccepted, Except.ok.injEq] at h
    have hplain : Plain device.toList := by
      rw [← h, String.toList_ofList]
      exact plain_unalias (plain_plain _)
    have hdevice : Accepted device.toList := by rwa [← h, String.toList_ofList]
    have hspelling : spelling device.toList = device.toList := by
      rw [spelling_eq, hplain.plain_eq, unalias_of_accepted hdevice]
    rw [normalize_eq_ok (by rwa [hspelling]), hspelling, String.ofList_toList]
  · rw [normalize_eq_error haccepted] at h
    cases h

end Device

/-! ## Configurations -/

/-- A configuration with its fields given once more. -/
def Config.given (cfg : Config) : LooseConfig where
  backend := .text cfg.backend.name
  device := .text cfg.device
  maxRank := .whole cfg.maxRank
  fastPaths := .boolean cfg.fastPaths
  zeroCopy := .boolean cfg.zeroCopy
  timings := .boolean cfg.timings

namespace LooseConfig

/-- What normalizing reads from each field. -/
structure Normalizes (c : LooseConfig) (cfg : Config) : Prop where
  backend : ∃ text, textOr "auto" c.backend = .ok text ∧
    BackendChoice.ofName? (String.ofList (Text.lower text.toList)) = some cfg.backend
  device : ∃ text, textOr "" c.device = .ok text ∧ Device.normalize text = .ok cfg.device
  maxRank : c.maxRank.toWhole = .ok (cfg.maxRank : ℤ)
  rank_pos : 0 < cfg.maxRank
  fastPaths : c.fastPaths.truth = .ok cfg.fastPaths
  zeroCopy : c.zeroCopy.truth = .ok cfg.zeroCopy
  timings : c.timings.truth = .ok cfg.timings

theorem normalize_eq_ok_iff {c : LooseConfig} {cfg : Config} :
    c.normalize = .ok cfg ↔ Normalizes c cfg := by
  constructor
  · intro h
    unfold normalize at h
    obtain ⟨backendText, hbackendText, h⟩ := except_bind_eq_ok.mp h
    cases hbackend : BackendChoice.ofName? (String.ofList (Text.lower backendText.toList)) with
    | none =>
      rw [hbackend] at h
      cases h
    | some backend =>
      rw [hbackend] at h
      obtain ⟨_, hsame, h⟩ := except_bind_eq_ok.mp h
      obtain rfl := Except.ok.inj hsame
      obtain ⟨text, htext, h⟩ := except_bind_eq_ok.mp h
      obtain ⟨device, hdevice, h⟩ := except_bind_eq_ok.mp h
      obtain ⟨rank, hrank, h⟩ := except_bind_eq_ok.mp h
      by_cases hpos : rank < 1
      · rw [if_pos hpos] at h
        cases h
      · rw [if_neg hpos] at h
        obtain ⟨fast, hfast, h⟩ := except_bind_eq_ok.mp h
        obtain ⟨zero, hzero, h⟩ := except_bind_eq_ok.mp h
        obtain ⟨timings, htimings, h⟩ := except_bind_eq_ok.mp h
        obtain rfl := Except.ok.inj h
        refine ⟨⟨_, hbackendText, hbackend⟩, ⟨_, htext, hdevice⟩, ?_, ?_, hfast, hzero, htimings⟩
        · rw [hrank, Int.toNat_of_nonneg (by omega)]
        · dsimp only
          omega
  · rintro ⟨⟨backendText, hbackendText, hbackend⟩, ⟨text, htext, hdevice⟩, hrank, hpos, hfast,
      hzero, htimings⟩
    have hrank' : ¬ (cfg.maxRank : ℤ) < 1 := by omega
    unfold normalize
    refine except_bind_eq_ok.mpr ⟨_, hbackendText, ?_⟩
    rw [hbackend]
    refine except_bind_eq_ok.mpr ⟨_, rfl, except_bind_eq_ok.mpr ⟨_, htext, ?_⟩⟩
    refine except_bind_eq_ok.mpr ⟨_, hdevice, except_bind_eq_ok.mpr ⟨_, hrank, ?_⟩⟩
    rw [if_neg hrank']
    refine except_bind_eq_ok.mpr ⟨_, hfast, except_bind_eq_ok.mpr ⟨_, hzero, ?_⟩⟩
    exact except_bind_eq_ok.mpr ⟨_, htimings, rfl⟩

theorem textOr_text (text : String) : textOr "" (.text text) = .ok text := by
  by_cases h : text = ""
  · rw [h]
    rfl
  · have htruth : (Value.text text).truth = .ok true := by simp [Value.truth, h]
    rw [textOr, htruth]
    rfl

theorem ofName?_lower_name (b : BackendChoice) :
    BackendChoice.ofName? (String.ofList (Text.lower b.name.toList)) = some b := by
  cases b with
  | auto => decide
  | fixed kind => cases kind <;> decide

theorem textOr_name (b : BackendChoice) : textOr "auto" (.text b.name) = .ok b.name := by
  cases b with
  | auto => rfl
  | fixed kind => cases kind <;> rfl

theorem normalizes_given {cfg : Config} (hdevice : Device.normalize cfg.device = .ok cfg.device)
    (hrank : 0 < cfg.maxRank) : Normalizes cfg.given cfg where
  backend := ⟨_, textOr_name cfg.backend, ofName?_lower_name cfg.backend⟩
  device := ⟨_, textOr_text cfg.device, hdevice⟩
  maxRank := rfl
  rank_pos := hrank
  fastPaths := rfl
  zeroCopy := rfl
  timings := rfl

/-- A configuration that was normalized is normalized to itself. -/
theorem normalize_given {c : LooseConfig} {cfg : Config} (h : c.normalize = .ok cfg) :
    cfg.given.normalize = .ok cfg := by
  obtain ⟨-, ⟨_, -, hdevice⟩, -, hrank, -⟩ := normalize_eq_ok_iff.mp h
  exact normalize_eq_ok_iff.mpr
    (normalizes_given (Device.normalize_of_normalize hdevice) hrank)

section Device

variable {text device : String}

theorem normalize_device_ok (h : Device.normalize text = .ok device) :
    ({ device := .text text } : LooseConfig).normalize = .ok { device } :=
  normalize_eq_ok_iff.mpr
    ⟨⟨"auto", rfl, rfl⟩, ⟨_, textOr_text text, h⟩, rfl, Nat.succ_pos _, rfl, rfl, rfl⟩

theorem normalize_device_error {e : Fault} (h : Device.normalize text = .error e) :
    ({ device := .text text } : LooseConfig).normalize = .error e := by
  have hbackend : textOr "auto" (.text "auto") = .ok "auto" := rfl
  have hname : BackendChoice.ofName? (String.ofList (Text.lower "auto".toList)) = some .auto := rfl
  unfold normalize
  refine except_bind_eq_error.mpr (.inr ⟨_, hbackend, ?_⟩)
  rw [hname]
  refine except_bind_eq_error.mpr (.inr ⟨_, rfl, ?_⟩)
  refine except_bind_eq_error.mpr (.inr ⟨_, textOr_text text, ?_⟩)
  exact except_bind_eq_error.mpr (.inl h)

end Device

/-- A device is accepted if it is documented, and gets its meaning, or if it starts like one that
is; every other is refused and named.  Whatever was normalized is normalized to itself. -/
theorem normalize_of_device (text : String) :
    (∀ meaning, Device.Means (Device.plain text.toList) meaning →
      ({ device := .text text } : LooseConfig).normalize =
        .ok { device := String.ofList meaning }) ∧
    ((∃ cfg, ({ device := .text text } : LooseConfig).normalize = .ok cfg) ↔
      (∃ meaning, Device.Means (Device.plain text.toList) meaning) ∨
        Device.Stray (Device.plain text.toList)) ∧
    ((∀ cfg, ({ device := .text text } : LooseConfig).normalize ≠ .ok cfg) →
      ({ device := .text text } : LooseConfig).normalize = .error (.configDevice text)) ∧
    ∀ (c : LooseConfig) (cfg : Config), c.normalize = .ok cfg → cfg.given.normalize = .ok cfg := by
  have haccepted : Device.Accepted (Device.spelling text.toList) ↔
      (∃ meaning, Device.Means (Device.plain text.toList) meaning) ∨
        Device.Stray (Device.plain text.toList) := Device.accepted_unalias_iff
  refine ⟨fun meaning hmeans => ?_, ⟨fun ⟨cfg, hcfg⟩ => ?_, fun h => ?_⟩, fun h => ?_,
    fun c cfg => normalize_given⟩
  · have h := Device.normalize_eq_ok (haccepted.mpr (.inl ⟨meaning, hmeans⟩))
    rw [Device.spelling_eq, Device.unalias_of_means hmeans] at h
    exact normalize_device_ok h
  · refine haccepted.mp (by_contra fun h => ?_)
    rw [normalize_device_error (Device.normalize_eq_error h)] at hcfg
    cases hcfg
  · exact ⟨_, normalize_device_ok (Device.normalize_eq_ok (haccepted.mpr h))⟩
  · by_cases hacc : Device.Accepted (Device.spelling text.toList)
    · exact absurd (normalize_device_ok (Device.normalize_eq_ok hacc)) (h _)
    · exact normalize_device_error (Device.normalize_eq_error hacc)

end LooseConfig

namespace Sample

theorem normalize_of_device_gpu :
    Device.Means (Device.plain " GPU:1\n".toList) "cuda:1".toList ∧
    ({ device := .text " GPU:1\n" } : LooseConfig).normalize = .ok { device := "cuda:1" } ∧
    ({ device := "cuda:1" } : Config).given.normalize = .ok { device := "cuda:1" } ∧
    (∀ cfg, ({ device := .text "tpu" } : LooseConfig).normalize ≠ .ok cfg) ∧
    ({ device := .text "tpu" } : LooseConfig).normalize = .error (.configDevice "tpu") := by
  have hplain : Device.plain " GPU:1\n".toList = "gpu:1".toList := by decide
  have hmeans : Device.Means (Device.plain " GPU:1\n".toList) "cuda:1".toList :=
    hplain ▸ .gpu (.number (List.cons_ne_nil '1' []) rfl)
  obtain ⟨hdocumented, -, -, hagain⟩ := LooseConfig.normalize_of_device " GPU:1\n"
  have hgpu := hdocumented _ hmeans
  have htpu : ∀ cfg, ({ device := .text "tpu" } : LooseConfig).normalize ≠ .ok cfg := by
    intro cfg h
    cases h
  exact ⟨hmeans, hgpu, hagain _ _ hgpu, htpu,
    (LooseConfig.normalize_of_device "tpu").2.2.1 htpu⟩

/-- Three texts that are accepted, and that are not documented. -/
theorem accepts_strays :
    (({ device := .text "cudax" } : LooseConfig).normalize = .ok { device := "cudax" } ∧
      Device.Stray (Device.plain "cudax".toList)) ∧
    (({ device := .text "mpsfoo" } : LooseConfig).normalize = .ok { device := "mps" } ∧
      Device.Stray (Device.plain "mpsfoo".toList)) ∧
    ({ device := .text "gpu:" } : LooseConfig).normalize = .ok { device := "cuda:" } ∧
      Device.Stray (Device.plain "gpu:".toList) := by
  have hcuda : Device.plain "cudax".toList = "cuda".toList ++ ['x'] := by decide
  have hmps : Device.plain "mpsfoo".toList = "mps".toList ++ ['f', 'o', 'o'] := by decide
  have hgpu : Device.plain "gpu:".toList = "gpu".toList ++ [':'] := by decide
  rw [hcuda, hmps, hgpu]
  refine ⟨⟨rfl, .inl (List.prefix_append _ _), ?_⟩,
    ⟨rfl, .inr (.inl (List.prefix_append _ _)), ?_⟩, rfl, .inr (.inr (List.prefix_refl _)), ?_⟩
  · exact Device.not_means_append (by decide) nofun
  · exact Device.not_means_append (by decide) nofun
  · exact Device.not_means_append (by decide) fun | .number hne _ => hne rfl

end Sample
end Hyperslab
