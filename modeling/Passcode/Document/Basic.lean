import Passcode.Binary64.Basic

/-!
# Document — the values of settings files and vocabulary files

A document is null, a truth value, an integer, a number with a point, a string, a list, or a mapping
from keys to documents.  A mapping keeps the order in which its keys came; `Fields.put` replaces the
value of a key in its place, so a key occurs once.

Laying one mapping over another (`Document.mergeFields`) goes key by key: two mappings are merged,
and in any other case the upper value replaces the lower one whole.
-/

namespace Passcode

/-- A value of a settings file or a vocabulary file. -/
inductive Document where
  | null
  | bool (value : Bool)
  | int (value : Int)
  | float (value : Binary64)
  | string (value : String)
  | list (items : List Document)
  | mapping (fields : List (String × Document))
deriving BEq, Repr

instance : Inhabited Document := ⟨.null⟩

/-- The keys of a mapping with their values, in the order in which they came. -/
abbrev Fields := List (String × Document)

namespace Fields

/-- The value of a key. -/
def get? : Fields → String → Option Document
  | [], _ => none
  | (k, v) :: rest, key => if k = key then some v else get? rest key

/-- Gives a key its value, in its place if it has one and else at the end. -/
def put : Fields → String → Document → Fields
  | [], key, value => [(key, value)]
  | (k, v) :: rest, key, value =>
    if k = key then (k, value) :: rest else (k, v) :: put rest key value

end Fields

namespace Document

/-- The kind of a document, by the name that messages give it. -/
def kindName : Document → String
  | .null => "NoneType"
  | .bool _ => "bool"
  | .int _ => "int"
  | .float _ => "float"
  | .string _ => "str"
  | .list _ => "list"
  | .mapping _ => "dict"

/-- A document that holds nothing and counts as an empty file: null, false, a zero, and an empty
string, list or mapping. -/
def isVoid : Document → Bool
  | .null => true
  | .bool b => !b
  | .int n => n = 0
  | .float x => x.isZero
  | .string s => s.isEmpty
  | .list items => items.isEmpty
  | .mapping fields => fields.isEmpty

/-- The document, or an empty mapping where it counts as an empty file. -/
def orEmpty (d : Document) : Document := if d.isVoid then .mapping [] else d

/-! ### Merging -/

mutual

/-- Lays the fields `upper` over the mapping `lower`. -/
def mergeFields (lower : Fields) : Fields → Fields
  | [] => lower
  | (key, value) :: rest =>
    mergeFields (Fields.put lower key (mergeValue (Fields.get? lower key) value)) rest

/-- The value of a key that has the value `lower` below and another one above: two mappings are
merged, and otherwise the upper value stands. -/
def mergeValue (lower : Option Document) : Document → Document
  | .mapping upper =>
    match lower with
    | some (.mapping fields) => .mapping (mergeFields fields upper)
    | _ => .mapping upper
  | upper => upper

end

/-- What cannot be laid over a mapping: a document that is not one. -/
structure NotMapping where
  found : Document

/-- The words for a document that is not a mapping where one is needed. -/
def NotMapping.message (e : NotMapping) : String :=
  "'" ++ e.found.kindName ++ "' object has no attribute 'items'"

/-- Lays the document `upper` over a mapping. -/
def mergeOver (lower : Fields) : Document → Except NotMapping Fields
  | .mapping upper => .ok (mergeFields lower upper)
  | other => .error ⟨other⟩

end Document

end Passcode
