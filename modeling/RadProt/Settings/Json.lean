import RadProt.Lib.CString

namespace RadProt.Settings

open RadProt.Lib

/-- The values a request document is made of. A string keeps every byte, a NUL included. -/
inductive Json
  | null
  | bool (b : Bool)
  | int (n : Int)
  | float (bits : UInt64)
  | str (s : List UInt8)
  | arr (items : List Json)
  | obj (members : List (String × Json))

namespace Json

def get (j : Json) (key : String) : Json :=
  match j with
  | .obj members => (members.lookup key).getD .null
  | _ => .null

def elem (j : Json) (i : Nat) : Json :=
  match j with
  | .arr items => items.getD i .null
  | _ => .null

/-- The conversion to `const char *`: a null pointer unless the variant is a string. -/
def asCStr : Json → Option (List UInt8)
  | .str s => some (cString s)
  | _ => none

/-- The conversion to `bool`: any string, the empty one included, converts to true. -/
def asBool : Json → Bool
  | .null => false
  | .bool b => b
  | .int n => n ≠ 0
  | .float bits => bits &&& 0x7fffffffffffffff ≠ 0
  | _ => true

/-- Comparison with a `char` array: only a string equals the C string that starts there. -/
def eqCStr : Json → List UInt8 → Bool
  | .str s, c => s = c
  | _, _ => false

@[simp] theorem eqCStr_str (s c : List UInt8) : (Json.str s).eqCStr c = true ↔ s = c := by
  simp [eqCStr]

end Json

inductive DeserializationError
  | emptyInput | incompleteInput | invalidInput | noMemory | tooDeep
  deriving DecidableEq

end RadProt.Settings
