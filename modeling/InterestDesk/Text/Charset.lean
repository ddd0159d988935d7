import InterestDesk.Text.AsciiBased
import InterestDesk.Text.Blank
import InterestDesk.Text.Utf16
/-!
# Charset — the encoding of a labelled text

A label names a charset; where it names none, the text is UTF-8.  A byte order mark at the start of a text outranks the
label and is no part of the text.
-/
namespace InterestDesk
namespace Text

inductive Charset where
  | utf8
  | utf16 (order : Utf16.ByteOrder)
  /-- ASCII and more, with the spellings of its further white space -/
  | asciiBased (blanks : List AsciiBased.Spelling)
  | iso2022Jp
  /-- a charset that is known and never read -/
  | unread
  deriving DecidableEq

namespace Charset

open AsciiBased (Spelling)

def nextLine (bytes : Bytes) : Spelling :=
  ⟨'\u0085', bytes⟩

def noBreak (bytes : Bytes) : Spelling :=
  ⟨'\u00a0', bytes⟩

def wideSpace (bytes : Bytes) : Spelling :=
  ⟨'\u3000', bytes⟩

/-- The white space of the two Chinese charsets that write a character in up to four bytes. -/
def chineseBlanks : List Spelling :=
  [⟨'\u3000', [0xa1, 0xa1]⟩, ⟨'\u3000', [0xa3, 0xa0]⟩, ⟨'\u0085', [0x81, 0x30, 0x81, 0x35]⟩,
   ⟨'\u00a0', [0x81, 0x30, 0x84, 0x32]⟩, ⟨'\u1680', [0x81, 0x34, 0xac, 0x34]⟩,
   ⟨'\u2000', [0x81, 0x36, 0xa3, 0x36]⟩, ⟨'\u2001', [0x81, 0x36, 0xa3, 0x37]⟩,
   ⟨'\u2002', [0x81, 0x36, 0xa3, 0x38]⟩, ⟨'\u2003', [0x81, 0x36, 0xa3, 0x39]⟩,
   ⟨'\u2004', [0x81, 0x36, 0xa4, 0x30]⟩, ⟨'\u2005', [0x81, 0x36, 0xa4, 0x31]⟩,
   ⟨'\u2006', [0x81, 0x36, 0xa4, 0x32]⟩, ⟨'\u2007', [0x81, 0x36, 0xa4, 0x33]⟩,
   ⟨'\u2008', [0x81, 0x36, 0xa4, 0x34]⟩, ⟨'\u2009', [0x81, 0x36, 0xa4, 0x35]⟩,
   ⟨'\u200a', [0x81, 0x36, 0xa4, 0x36]⟩, ⟨'\u2028', [0x81, 0x36, 0xa6, 0x35]⟩,
   ⟨'\u2029', [0x81, 0x36, 0xa6, 0x36]⟩, ⟨'\u202f', [0x81, 0x36, 0xa7, 0x32]⟩,
   ⟨'\u205f', [0x81, 0x36, 0xab, 0x35]⟩]

/-- The labels of the charsets other than UTF-8, in lowercase. -/
def labels : List (Charset × List String) :=
  [(.asciiBased [nextLine [0x85], noBreak [0xa0]],
    ["csisolatin2", "iso-8859-2", "iso-ir-101", "iso8859-2", "iso88592", "iso_8859-2", "iso_8859-2:1987", "l2",
     "latin2", "csisolatin3", "iso-8859-3", "iso-ir-109", "iso8859-3", "iso88593", "iso_8859-3",
     "iso_8859-3:1988", "l3", "latin3", "csisolatin4", "iso-8859-4", "iso-ir-110", "iso8859-4", "iso88594",
     "iso_8859-4", "iso_8859-4:1988", "l4", "latin4", "csisolatincyrillic", "cyrillic", "iso-8859-5",
     "iso-ir-144", "iso8859-5", "iso88595", "iso_8859-5", "iso_8859-5:1988", "arabic", "asmo-708", "csiso88596e",
     "csiso88596i", "csisolatinarabic", "ecma-114", "iso-8859-6", "iso-8859-6-e", "iso-8859-6-i", "iso-ir-127",
     "iso8859-6", "iso88596", "iso_8859-6", "iso_8859-6:1987", "csisolatingreek", "ecma-118", "elot_928", "greek",
     "greek8", "iso-8859-7", "iso-ir-126", "iso8859-7", "iso88597", "iso_8859-7", "iso_8859-7:1987",
     "sun_eu_greek", "csiso88598e", "csisolatinhebrew", "hebrew", "iso-8859-8", "iso-8859-8-e", "iso-ir-138",
     "iso8859-8", "iso88598", "iso_8859-8", "iso_8859-8:1988", "visual", "csiso88598i", "iso-8859-8-i", "logical",
     "csisolatin6", "iso-8859-10", "iso-ir-157", "iso8859-10", "iso885910", "l6", "latin6", "iso-8859-13",
     "iso8859-13", "iso885913", "iso-8859-14", "iso8859-14", "iso885914", "csisolatin9", "iso-8859-15",
     "iso8859-15", "iso885915", "iso_8859-15", "l9", "iso-8859-16"]),
   (.asciiBased [noBreak [0xa0]],
    ["dos-874", "iso-8859-11", "iso8859-11", "iso885911", "tis-620", "windows-874", "cp1250", "windows-1250",
     "x-cp1250", "cp1251", "windows-1251", "x-cp1251", "ansi_x3.4-1968", "ascii", "cp1252", "cp819",
     "csisolatin1", "ibm819", "iso-8859-1", "iso-ir-100", "iso8859-1", "iso88591", "iso_8859-1",
     "iso_8859-1:1987", "l1", "latin1", "us-ascii", "windows-1252", "x-cp1252", "cp1253", "windows-1253",
     "x-cp1253", "cp1254", "csisolatin5", "iso-8859-9", "iso-ir-148", "iso8859-9", "iso88599", "iso_8859-9",
     "iso_8859-9:1989", "l5", "latin5", "windows-1254", "x-cp1254", "cp1255", "windows-1255", "x-cp1255",
     "cp1256", "windows-1256", "x-cp1256", "cp1257", "windows-1257", "x-cp1257", "cp1258", "windows-1258",
     "x-cp1258"]),
   (.asciiBased [noBreak [0x9a]],
    ["cskoi8r", "koi", "koi8", "koi8-r", "koi8_r", "koi8-ru", "koi8-u"]),
   (.asciiBased [noBreak [0xca]],
    ["csmacintosh", "mac", "macintosh", "x-mac-roman", "x-mac-cyrillic", "x-mac-ukrainian"]),
   (.asciiBased [noBreak [0xff]],
    ["866", "cp866", "csibm866", "ibm866"]),
   (.asciiBased chineseBlanks,
    ["chinese", "csgb2312", "csiso58gb231280", "gb2312", "gb_2312", "gb_2312-80", "gbk", "iso-ir-58", "x-gbk",
     "gb18030"]),
   (.asciiBased [wideSpace [0xa1, 0x40]],
    ["big5", "big5-hkscs", "cn-big5", "csbig5", "x-x-big5"]),
   (.asciiBased [wideSpace [0xa1, 0xa1]],
    ["cseucpkdfmtjapanese", "euc-jp", "x-euc-jp", "cseuckr", "csksc56011987", "euc-kr", "iso-ir-149", "korean",
     "ks_c_5601-1987", "ks_c_5601-1989", "ksc5601", "ksc_5601", "windows-949"]),
   (.asciiBased [wideSpace [0x81, 0x40]],
    ["csshiftjis", "ms932", "ms_kanji", "shift-jis", "shift_jis", "sjis", "windows-31j", "x-sjis"]),
   (.asciiBased [],
    ["x-user-defined"]),
   (.iso2022Jp,
    ["csiso2022jp", "iso-2022-jp"]),
   (.utf16 .lowFirst,
    ["csunicode", "iso-10646-ucs-2", "ucs-2", "unicode", "unicodefeff", "utf-16", "utf-16le"]),
   (.utf16 .highFirst,
    ["unicodefffe", "utf-16be"]),
   (.unread,
    ["csiso2022kr", "hz-gb-2312", "iso-2022-cn", "iso-2022-cn-ext", "iso-2022-kr", "replacement"])]

def isLabelBlank (c : Char) : Bool :=
  c == ' ' || c == '\t' || c == '\n' || c == '\x0c' || c == '\r'

/-- The charset of a label, in any case and with white space around it; UTF-8 if it is none of a charset. -/
def ofLabel (label : List Char) : Charset :=
  let label := (dropTrailing isLabelBlank (label.dropWhile isLabelBlank)).map Char.toLower
  match labels.find? (·.2.any (·.toList == label)) with
  | some (charset, _) => charset
  | none => utf8

/-- The charset that a byte order mark at the start of a text says, and the text behind the mark. -/
def marked? : Bytes → Option (Charset × Bytes)
  | 0xef :: 0xbb :: 0xbf :: rest => some (utf8, rest)
  | 0xff :: 0xfe :: rest => some (utf16 .lowFirst, rest)
  | 0xfe :: 0xff :: rest => some (utf16 .highFirst, rest)
  | _ => none

/-- Reads a text in a charset.  One that is never read gives a single replacement character for all of a text. -/
def read (charset : Charset) (bytes : Bytes) : List Char :=
  match charset with
  | utf8 => Utf8.decode bytes
  | utf16 order => Utf16.decode order bytes
  | asciiBased blanks => AsciiBased.decode blanks bytes
  | iso2022Jp => AsciiBased.decodeIso2022Jp bytes
  | unread => if bytes.isEmpty then [] else [Utf8.replacement]

/-- Reads a text in the charset of its mark, or in the given one if it has no mark. -/
def decode (charset : Charset) (bytes : Bytes) : List Char :=
  match marked? bytes with
  | some (charset, rest) => charset.read rest
  | none => charset.read bytes

theorem decode_of_marked? {bytes rest : Bytes} {charset : Charset} (h : marked? bytes = some (charset, rest))
    (given : Charset) : given.decode bytes = charset.read rest := by
  simp [decode, h]

end Charset
end Text
end InterestDesk
