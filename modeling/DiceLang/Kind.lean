/-!
# Kinds

What an expression comes to: one number, or a list of them.
-/

namespace DiceLang

inductive Kind where
  | scalar
  | list
deriving Repr, DecidableEq

end DiceLang
