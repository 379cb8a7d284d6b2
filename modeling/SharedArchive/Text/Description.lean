/-!
One-line descriptions of records: a record's name and its fields in braces, a chosen alternative's
name with what it holds in parentheses. Numbers keep their width, and are written in decimal.
-/

namespace SharedArchive.Text

inductive Description
  | number (bits : Nat) (value : Int)
  | flag (value : Bool)
  | record (name : String) (fields : List (String × Description))
  | choice (name : String) (held : Description)

namespace Description

def ofUInt8 (n : UInt8) : Description := number 8 n.toNat
def ofUInt32 (n : UInt32) : Description := number 32 n.toNat
def ofUInt64 (n : UInt64) : Description := number 64 n.toNat
def ofInt32 (n : Int32) : Description := number 32 n.toInt
def ofInt64 (n : Int64) : Description := number 64 n.toInt

mutual

def render : Description → String
  | number _ value => toString value
  | flag value => toString value
  | record name fields =>
    name ++ " \x7b " ++ ", ".intercalate (renderFields fields) ++ " \x7d"
  | choice name held => name ++ "(" ++ held.render ++ ")"

def renderFields : List (String × Description) → List String
  | [] => []
  | (label, d) :: rest => (label ++ ": " ++ d.render) :: renderFields rest

end

end Description

end SharedArchive.Text
