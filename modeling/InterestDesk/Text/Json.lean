/-!
# Json — compact objects of texts

Quotes, backslashes and control characters are escaped; every other character stands for itself.
-/
namespace InterestDesk
namespace Text.Json

def hexDigit (n : Nat) : Char :=
  Nat.digitChar (n % 16)

/-- A character as it stands between quotes. -/
def escape (c : Char) : List Char :=
  match c with
  | '"' => ['\\', '"']
  | '\\' => ['\\', '\\']
  | '\x08' => ['\\', 'b']
  | '\t' => ['\\', 't']
  | '\n' => ['\\', 'n']
  | '\x0c' => ['\\', 'f']
  | '\r' => ['\\', 'r']
  | c =>
    if c.toNat < 0x20 then ['\\', 'u', '0', '0', hexDigit (c.toNat / 16), hexDigit c.toNat]
    else [c]

def quote (text : String) : List Char :=
  '"' :: text.toList.flatMap escape ++ ['"']

/-- The members of an object, with a comma between them. -/
def members : List (String × String) → List Char
  | [] => []
  | [(name, value)] => quote name ++ ':' :: quote value
  | (name, value) :: rest => quote name ++ ':' :: quote value ++ ',' :: members rest

/-- A compact object whose members are texts. -/
def object (pairs : List (String × String)) : String :=
  String.ofList ('\x7b' :: members pairs ++ ['\x7d'])

theorem toList_object_singleton (name value : String) :
    (object [(name, value)]).toList =
      ('\x7b' :: quote name ++ [':', '"']) ++ value.toList.flatMap escape ++ ['"', '\x7d'] := by
  unfold object members quote
  rw [String.toList_ofList]
  simp

end Text.Json
end InterestDesk
