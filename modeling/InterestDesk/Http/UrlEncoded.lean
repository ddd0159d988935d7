import InterestDesk.Text.Utf8
/-!
# UrlEncoded — forms in one line

Pairs are separated by `&`, a name from its value by the first `=`.  A plus is a space and `%` with two hexadecimal
digits a byte; a `%` without them stands for itself.
-/
namespace InterestDesk
namespace Http.UrlEncoded

/-- The value of a hexadecimal digit of either case. -/
def hexValue? (b : UInt8) : Option UInt8 :=
  if 0x30 ≤ b && b ≤ 0x39 then some (b - 0x30)
  else if 0x41 ≤ b && b ≤ 0x46 then some (b - 0x37)
  else if 0x61 ≤ b && b ≤ 0x66 then some (b - 0x57)
  else none

/-- `unescape` on the rest of a text, with the bytes before it in reverse. -/
def unescapeOnto (done : Bytes) : Bytes → Bytes
  | [] => done.reverse
  | 0x25 :: high :: low :: rest =>
    match hexValue? high, hexValue? low with
    | some h, some l => unescapeOnto ((h * 16 + l) :: done) rest
    | _, _ => unescapeOnto (0x25 :: done) (high :: low :: rest)
  | 0x2b :: rest => unescapeOnto (0x20 :: done) rest
  | b :: rest => unescapeOnto (b :: done) rest

def unescape (bytes : Bytes) : Bytes :=
  unescapeOnto [] bytes

def component (bytes : Bytes) : String :=
  String.ofList (Text.Utf8.decode (unescape bytes))

/-- A piece between two `&` as a pair; without a `=` the value is empty. -/
def pair (piece : Bytes) : String × String :=
  (component (piece.takeWhile (· != 0x3d)), component ((piece.dropWhile (· != 0x3d)).drop 1))

def pairs (body : Bytes) : List (String × String) :=
  ((body.splitOn 0x26).filter (!·.isEmpty)).map pair

end Http.UrlEncoded
end InterestDesk
