/-!
# Lists in running text

Two items are joined by the conjunction alone; from three on, commas divide them and one more comma
stands before the conjunction.
-/

namespace DiceLang.Text

def listing (conjunction : String) : List String → String
  | [] => ""
  | [a] => a
  | [a, b] => a ++ " " ++ conjunction ++ " " ++ b
  | items@(_ :: _ :: _ :: _) =>
    ", ".intercalate items.dropLast ++ ", " ++ conjunction ++ " " ++ items.getLastD ""

def listingAnd : List String → String := listing "and"

def listingOr : List String → String := listing "or"

example : listingOr ["a", "b", "c"] = "a, b, or c" := by decide +kernel

end DiceLang.Text
