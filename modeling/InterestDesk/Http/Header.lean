/-!
# Header — named lines before a body

The order of the headers and repeated names are kept; names are compared without regard to case.
-/
namespace InterestDesk
namespace Http

/-- Headers in the order they were sent. -/
abbrev Headers := List (String × String)

namespace Headers

def folded (name : String) : List Char :=
  name.toList.map Char.toLower

def first? (headers : Headers) (name : String) : Option String :=
  (headers.find? fun header => folded header.1 == folded name).map (·.2)

/-- The characters of a value, if all are visible ASCII, spaces or tabs. -/
def visible? (value : String) : Option (List Char) :=
  if value.toList.all fun c => c == '\t' || (' ' ≤ c && c ≤ '~') then some value.toList else none

/-- The characters of the first header of a name; none unless they are visible. -/
def firstVisible? (headers : Headers) (name : String) : Option (List Char) :=
  (headers.first? name).bind visible?

end Headers
end Http
end InterestDesk
