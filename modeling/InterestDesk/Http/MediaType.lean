/-!
# MediaType — the type of a body and its parameters

A media type is `type/subtype`, then parameters behind semicolons.  A parameter's value is plain or in quotes, and in
quotes it holds at least one character.
-/
namespace InterestDesk
namespace Http

abbrev Parameter := List Char × List Char

structure MediaType where
  kind : List Char
  subtype : List Char
  parameters : List Parameter

namespace MediaType

def isToken (c : Char) : Bool :=
  c.isAlphanum || "!#$%&'*+-.^_`|~".toList.contains c

def isQuotable (c : Char) : Bool :=
  0x1f < c.val && c.val != 0x7f

/-- The rest behind the semicolon that ends a parameter, or nothing at the end. -/
def afterSemicolon? : List Char → Option (List Char)
  | [] => some []
  | ';' :: rest => some rest
  | _ => none

/-- Reads a value in quotes, from behind the opening one; the first character is never the closing quote. -/
def readQuoted? : List Char → Option (List Char × List Char)
  | [] => none
  | c :: rest =>
    let value := c :: rest.takeWhile fun c => c != '"' && isQuotable c
    match rest.dropWhile fun c => c != '"' && isQuotable c with
    | '"' :: rest => if isQuotable c then (afterSemicolon? (rest.dropWhile (· == ' '))).map (value, ·) else none
    | _ => none

/-- Reads a value and gives the rest behind it; only at the end may a plain value be empty. -/
def readValue? : List Char → Option (List Char × List Char)
  | [] => some ([], [])
  | '"' :: rest => readQuoted? rest
  | text =>
    let value := text.takeWhile isToken
    if value.isEmpty then none
    else (afterSemicolon? (text.dropWhile isToken)).map (value, ·)

def readParameter? (text : List Char) : Option (Parameter × List Char) :=
  let name := text.takeWhile isToken
  match text.dropWhile isToken with
  | '=' :: rest =>
    if name.isEmpty then none else (readValue? rest).map fun (value, rest) => ((name, value), rest)
  | _ => none

/-- Reads at most `count` parameters, which must be all of them. -/
def readParameters? (count : Nat) (text : List Char) : Option (List Parameter) :=
  match count, text.dropWhile (· == ' ') with
  | _, [] => some []
  | 0, _ => none
  | count + 1, text =>
    match readParameter? text with
    | none => none
    | some (parameter, rest) => (readParameters? count rest).map (parameter :: ·)

/-- The subtype without its last suffix behind a plus. -/
def withoutSuffix (subtype : List Char) : List Char :=
  match (subtype.reverse.dropWhile (· != '+')).drop 1 with
  | [] => subtype
  | stem => stem.reverse

def read? (text : List Char) : Option MediaType :=
  let kind := text.takeWhile isToken
  match text.dropWhile isToken with
  | '/' :: rest =>
    let subtype := rest.takeWhile isToken
    if kind.isEmpty || subtype.isEmpty then none
    else
      match rest.dropWhile isToken with
      | [] => some ⟨kind, withoutSuffix subtype, []⟩
      | ';' :: rest => (readParameters? rest.length rest).map (⟨kind, withoutSuffix subtype, ·⟩)
      | _ => none
  | _ => none

/-- The value of the first parameter of a name given in lowercase. -/
def parameter? (m : MediaType) (name : String) : Option (List Char) :=
  (m.parameters.find? fun p => p.1.map Char.toLower == name.toList).map (·.2)

def boundary? (text : List Char) : Option (List Char) :=
  (read? text).bind fun m =>
    if m.kind.map Char.toLower == "multipart".toList && m.subtype.map Char.toLower == "form-data".toList then
      m.parameter? "boundary"
    else none

def charset? (text : List Char) : Option (List Char) :=
  (read? text).bind (·.parameter? "charset")

end MediaType
end Http
end InterestDesk
