import Hyperslab.Fault
import Hyperslab.Number.Power
import Hyperslab.Text.Blank
import Hyperslab.Text.Case

/-!
# Devices

A configured device is written loosely: in any case, with blanks around it, and with two aliases.
`normalize` brings it to one spelling and refuses what cannot be meant.  `Device.ofText` reads the
spelling that tensors take, a kind of device with an optional number.
-/
namespace Hyperslab

/-- Where tensors are computed. -/
inductive Device where
  /-- Wherever the operands are. -/
  | auto
  | named (text : String)
  deriving DecidableEq, Repr

namespace Device

def cudaName : List Char := "cuda".toList

/-- The one spelling of a device: no blanks around it, small letters, and no aliases. -/
def spelling (text : List Char) : List Char :=
  let device := Text.lower (Text.trim text)
  if device.isEmpty then "auto".toList
  else if device = "gpu".toList then cudaName
  else if "gpu:".toList.isPrefixOf device then cudaName ++ device.drop 3
  else if "mps".toList.isPrefixOf device then "mps".toList
  else device

/-- The spelling of a configured device, if it can be meant. -/
def normalize (text : String) : Except Fault String :=
  let device := spelling text.toList
  if ["auto", "cpu", "mps"].contains (String.ofList device) || cudaName.isPrefixOf device then
    .ok (String.ofList device)
  else .error (.configDevice text)

/-- The kinds of device that a text can name. -/
def kinds : List String :=
  ["cpu", "cuda", "ipu", "xpu", "mkldnn", "opengl", "opencl", "ideep", "hip", "ve", "fpga", "maia",
    "xla", "lazy", "vulkan", "mps", "meta", "hpu", "mtia", "privateuseone"]

def isDigit (c : Char) : Bool := '0' ≤ c && c ≤ '9'

/-- The number of a device: digits without a zero in front, in 31 bits. -/
def isNumber (cs : List Char) : Bool :=
  cs.all isDigit &&
    match cs with
    | [] => false
    | '0' :: rest => rest.isEmpty
    | cs => cs.foldl (fun n c => 10 * n + (c.toNat - 48)) 0 < Number.twoTo 31

/-- The kind of device that a text names, with or without a number. -/
def kind? (text : List Char) : Option String :=
  let kind := String.ofList (text.takeWhile (· != ':'))
  let numbered := match text.dropWhile (· != ':') with
    | [] => true
    | _ :: number => isNumber number
  if kinds.contains kind && numbered then some kind else none

/-- The device that tensors are to be on.  There are no graphics devices. -/
def ofText (text : String) : Except Fault Device :=
  if text = "" || text = "auto" then .ok auto
  else match kind? text.toList with
    | none => .error .unknownDevice
    | some "cuda" => .error .noCuda
    | some "mps" => .error .noMps
    | some _ => .ok (named text)

def name : Device → String
  | auto => "auto"
  | named text => text

end Device

end Hyperslab
