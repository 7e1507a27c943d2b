/-!
# Configuration data

The data that a configuration is made of.
-/

namespace DiceLang.Config

inductive Datum where
  | null
  | bool (value : Bool)
  | int (value : Int)
  | text (value : String)
  | list (items : List Datum)
  | table (entries : List (String × Datum))
deriving Inhabited

end DiceLang.Config
