import AdminPolicy.Number.Binary64
import AdminPolicy.Text.Split

/-!
# Configuration values

What a configuration is made of: scalars, arrays and tables. A value knows the source that it was written in; what was
made while sources were put together has none. A table finds what was put into it last.
-/

namespace AdminPolicy.Config

/-- A value without parts. -/
inductive Scalar where
  | null
  | boolean (b : Bool)
  | integer (i : Int)
  | real (x : Number.Real64)
  | text (s : String)
  deriving DecidableEq, Repr

/-- The name of what a value was written in. -/
abbrev Source := String

/-- A value and its source. -/
inductive Value where
  | scalar (source? : Option Source) (s : Scalar)
  | array (source? : Option Source) (elements : List Value)
  | table (source? : Option Source) (fields : List (String × Value))
  deriving Repr

/-- The fields of a table. -/
abbrev Fields := List (String × Value)

namespace Fields

def lookup (name : String) : Fields → Option Value
  | [] => none
  | (n, v) :: fs => if n = name then some v else lookup name fs

def put (name : String) (v : Value) : Fields → Fields
  | [] => [(name, v)]
  | (n, w) :: fs => if n = name then (n, v) :: fs else (n, w) :: put name v fs

end Fields

namespace Value

/-- A text of no source. -/
def ofText (s : String) : Value := .scalar none (.text s)

/-- The empty table that is made where none is. -/
def emptyTable : Value := .table none []

/-- The fields of a value; a value that is no table has none. -/
def fields : Value → Fields
  | table _ fs => fs
  | _ => []

def elements : Value → List Value
  | array _ vs => vs
  | _ => []

/-- The table with other fields; a value that is no table gives way to one. -/
def withFields (fs : Fields) : Value → Value
  | table source? _ => table source? fs
  | _ => table none fs

def withElements (vs : List Value) : Value → Value
  | array source? _ => array source? vs
  | _ => array none vs

mutual

/-- The value, all of it written in a source. -/
def writtenIn (source : Source) : Value → Value
  | scalar _ s => scalar (some source) s
  | array _ vs => array (some source) (writtenInAll source vs)
  | table _ fs => table (some source) (writtenInFields source fs)

def writtenInAll (source : Source) : List Value → List Value
  | [] => []
  | v :: vs => v.writtenIn source :: writtenInAll source vs

def writtenInFields (source : Source) : Fields → Fields
  | [] => []
  | (n, v) :: fs => (n, v.writtenIn source) :: writtenInFields source fs

end

end Value

end AdminPolicy.Config
