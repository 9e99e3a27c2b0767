import AdminPolicy.Config.Value
import AdminPolicy.Toml.Datetime

/-!
# Values of TOML documents

What can stand behind an equals sign. `configuration?` is the configuration value that one comes to: dates and times
become text. A table whose first name is `datetimeName` is another way to write a date or a time, as the text behind
that name; if there is none, the table comes to nothing.
-/

namespace AdminPolicy.Toml

open Config

inductive Value where
  | scalar (s : Scalar)
  | datetime (d : Datetime)
  | array (elements : List Value)
  | table (fields : List (String × Value))

/-- The first name of a table that stands for a date or a time. -/
def datetimeName : String := "$__toml_private_datetime"

namespace Value

/-- The date or time that a text is. -/
def readDatetime? : Value → Option Datetime
  | scalar (.text s) => Datetime.ofText? s
  | _ => none

/-- What the fields of a table say of a date or a time, if the table stands for one. -/
def datetimeField? : List (String × Value) → Option Value
  | (name, v) :: _ => if name = datetimeName then some v else none
  | [] => none

mutual

/-- The configuration value that a value comes to. -/
def configuration? : Value → Option Config.Value
  | scalar s => some (.scalar none s)
  | datetime d => some (.ofText d.text)
  | array vs => (configurations? vs).map (.array none)
  | table fs =>
    match datetimeField? fs with
    | some v => v.readDatetime?.map fun d => .ofText d.text
    | none => (fieldConfigurations? fs).map (.table none)

def configurations? : List Value → Option (List Config.Value)
  | [] => some []
  | v :: vs => do pure ((← v.configuration?) :: (← configurations? vs))

def fieldConfigurations? : List (String × Value) → Option Fields
  | [] => some []
  | (name, v) :: fs => do pure ((name, ← v.configuration?) :: (← fieldConfigurations? fs))

end

end Value

end AdminPolicy.Toml
