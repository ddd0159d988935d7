import InterestDesk.Http.MediaType
import InterestDesk.Text.Charset
import InterestDesk.Text.Cut
import InterestDesk.Text.Utf8
/-!
# Multipart — forms as parts between boundaries

A body is a stream of parts that ends well at the closing boundary or badly anywhere before it.  A form is read whole
or not at all: `Parts.pairs?` gives the named texts of a stream only if nothing in it fails.
-/
namespace InterestDesk
namespace Http.Multipart

/-- A stream of parts.  The text of a part may fail, and so may the search for the next part. -/
inductive Parts where
  | done
  | failed
  | part (name text : Option String) (next : Parts)

/-- The named texts in order; none if the stream or one of those texts fails. -/
def Parts.pairs? : Parts → Option (List (String × String))
  | done => some []
  | failed => none
  | part none _ next => next.pairs?
  | part (some _) none _ => none
  | part (some name) (some text) next => next.pairs?.map ((name, text) :: ·)

def lineEnd : Bytes :=
  [0x0d, 0x0a]

def dashes : Bytes :=
  [0x2d, 0x2d]

def isNameByte (b : UInt8) : Bool :=
  (Char.ofNat b.toNat).isAlphanum || "!#$%&'*+-.^_`|~".toList.contains (Char.ofNat b.toNat)

def isValueByte (b : UInt8) : Bool :=
  b == 0x09 || (0x20 ≤ b && b != 0x7f)

def isBlankByte (b : UInt8) : Bool :=
  b == 0x20 || b == 0x09

def isSpaceByte (b : UInt8) : Bool :=
  b == 0x20 || b == 0x09 || b == 0x0a || b == 0x0c || b == 0x0d

def maxHeaders : Nat := 32

def maxNameBytes : Nat := 65535

def afterLineEnd? : Bytes → Option Bytes
  | 0x0d :: 0x0a :: rest => some rest
  | 0x0a :: rest => some rest
  | _ => none

/-- Reads at most `count` headers up to an empty line; names come out in lowercase. -/
def readHeaders? (count : Nat) (text : Bytes) : Option (List (Bytes × Bytes)) :=
  match afterLineEnd? text, count with
  | some _, _ => some []
  | none, 0 => none
  | none, count + 1 =>
    let name := text.takeWhile isNameByte
    match text.dropWhile isNameByte with
    | 0x3a :: rest =>
      let line := rest.dropWhile isBlankByte
      let value := ((line.takeWhile isValueByte).reverse.dropWhile isBlankByte).reverse
      match afterLineEnd? (line.dropWhile isValueByte) with
      | some rest =>
        if name.isEmpty || maxNameBytes < name.length then none
        else (readHeaders? count rest).map ((name.map (fun b => (Char.ofNat b.toNat).toLower.toUInt8), value) :: ·)
      | none => none
    | _ => none

/-- `readQuoted?` on the rest of a text, with the bytes before it in reverse. -/
def readQuotedOnto? (done : Bytes) : Bytes → Option Bytes
  | [] => none
  | b :: rest =>
    if b == 0x22 && done.head? != some 0x5c then some done.reverse
    else readQuotedOnto? (b :: done) rest

/-- Reads up to the quote that no backslash stands before. -/
def readQuoted? (text : Bytes) : Option Bytes :=
  readQuotedOnto? [] text

/-- `unquote` on the rest of a text, with the characters before it in reverse. -/
def unquoteOnto (done : List Char) : List Char → List Char
  | [] => done.reverse
  | '\\' :: '"' :: rest => unquoteOnto ('"' :: done) rest
  | c :: rest => unquoteOnto (c :: done) rest

def unquote (text : List Char) : List Char :=
  unquoteOnto [] text

/-- A parameter's value: in quotes, or plain up to a semicolon or a space. -/
def parameterValue? : Bytes → Option Bytes
  | 0x22 :: rest => readQuoted? rest
  | text => some (text.takeWhile fun b => b != 0x3b && b != 0x20)

/-- The value of the `name` parameter.  The word counts where `last`, the byte before it, is white space or a semicolon,
and then an equals sign has to follow; the search behind a word that does not count begins as if behind a semicolon. -/
def nameValue? (last : UInt8) : Bytes → Option Bytes
  | [] => none
  | 0x6e :: 0x61 :: 0x6d :: 0x65 :: rest =>
    if isSpaceByte last || last == 0x3b then
      match rest.dropWhile isSpaceByte with
      | 0x3d :: value => parameterValue? (value.dropWhile isSpaceByte)
      | _ => none
    else nameValue? 0x3b rest
  | b :: rest => nameValue? b rest

/-- The field name in a disposition; none if there is no name or it is not text. -/
def fieldName? (disposition : Bytes) : Option String :=
  ((nameValue? 0x3b disposition).bind Text.Utf8.decode?).map fun name => String.ofList (unquote name)

def dispositionHeader : Bytes :=
  Text.Utf8.ofString "content-disposition"

def partName? (headers : List (Bytes × Bytes)) : Option String :=
  (headers.reverse.lookup dispositionHeader).bind fieldName?

def typeHeader : Bytes :=
  Text.Utf8.ofString "content-type"

/-- The characters of a header value, if all are visible ASCII, spaces or tabs. -/
def visible? (value : Bytes) : Option (List Char) :=
  if value.all fun b => b == 0x09 || (0x20 ≤ b && b < 0x7f) then some (value.map (Char.ofNat ·.toNat)) else none

/-- The charset in the headers of a part; the last content type counts, and UTF-8 is meant where it names none. -/
def partCharset (headers : List (Bytes × Bytes)) : Text.Charset :=
  match ((headers.reverse.lookup typeHeader).bind visible?).bind MediaType.charset? with
  | some label => Text.Charset.ofLabel label
  | none => .utf8

def partText (headers : List (Bytes × Bytes)) (content : Bytes) : String :=
  String.ofList ((partCharset headers).decode content)

/-- The headers of a part and the rest behind them, from behind its boundary: blanks, the end of the line, headers. -/
def readPartHead? (text : Bytes) : Option (List (Bytes × Bytes) × Bytes) :=
  match text.dropWhile isBlankByte with
  | 0x0d :: 0x0a :: text =>
    match Text.cutAt? (lineEnd ++ lineEnd) text with
    | some (head, rest) => (readHeaders? maxHeaders (head ++ lineEnd ++ lineEnd)).map (·, rest)
    | none => none
  | _ => none

/-- At most `count` parts of a body, from behind a boundary. -/
def partsFrom (boundary : Bytes) : (count : Nat) → Bytes → Parts
  | 0, _ => .failed
  | count + 1, text =>
    if dashes.isPrefixOf text then .done
    else
      match readPartHead? text with
      | none => .failed
      | some (headers, rest) =>
        match Text.cutAt? (lineEnd ++ dashes ++ boundary) rest with
        | some (content, rest) =>
          .part (partName? headers) (some (partText headers content)) (partsFrom boundary count rest)
        | none => .part (partName? headers) none .failed

/-- The parts of a body; what stands before the first boundary is skipped. -/
def parts (boundary body : Bytes) : Parts :=
  match Text.cutAt? (dashes ++ boundary) body with
  | some (_, rest) => partsFrom boundary (body.length + 1) rest
  | none => .failed

end Http.Multipart
end InterestDesk
