import InterestDesk.Http.Header
import InterestDesk.Http.MediaType
import InterestDesk.Http.Multipart
import InterestDesk.Http.UrlEncoded
import InterestDesk.Request
/-!
# Form — the submitted fields of a request

The content type says which of the two encodings a body has.  A body that cannot be read gives the empty form.
-/
namespace InterestDesk
namespace Http

def maxBodyBytes : Nat := 2097152

def contentType : String :=
  "content-type"

def isMultipart (headers : Headers) : Bool :=
  match headers.firstVisible? contentType with
  | some value => "multipart/form-data".toList.isPrefixOf (value.dropWhile Text.isBlank)
  | none => false

def isUrlEncoded (headers : Headers) : Bool :=
  match headers.firstVisible? contentType with
  | some value => "application/x-www-form-urlencoded".toList.isPrefixOf value
  | none => false

def multipartPairs? (headers : Headers) (body : Bytes) : Option (List (String × String)) :=
  match (headers.firstVisible? contentType).bind MediaType.boundary? with
  | some boundary => (Multipart.parts (Text.Utf8.encode boundary) body).pairs?
  | none => none

/-- The fields of a request: of repeated names the first counts in a multipart form, the last in a url encoded one. -/
def readFields (headers : Headers) (body : Bytes) : Fields :=
  if maxBodyBytes < body.length then Fields.empty
  else if isMultipart headers then
    match multipartPairs? headers body with
    | some pairs => Fields.firstOf pairs
    | none => Fields.empty
  else if isUrlEncoded headers then Fields.lastOf (UrlEncoded.pairs body)
  else Fields.empty

end Http
end InterestDesk
