import DiceLang.Main
import DiceLang.Proofs.Derivation
import DiceLang.Proofs.PhraseRules
import DiceLang.Proofs.ReadingSound
import DiceLang.Proofs.Acceptance
import DiceLang.Proofs.Canonical
import DiceLang.Proofs.RoundTrip
import DiceLang.Proofs.Annotation
import DiceLang.Proofs.Ensures
import DiceLang.Proofs.Faces
import DiceLang.Proofs.Magnitude
import DiceLang.Proofs.Trace
import DiceLang.Proofs.Height
import DiceLang.Proofs.Widening
import DiceLang.Proofs.Blame
import DiceLang.Proofs.WellKinded
import DiceLang.Proofs.Wholeness
import DiceLang.Proofs.Fitting
import DiceLang.Proofs.Separation
import DiceLang.Proofs.MessageReading
import DiceLang.Proofs.Legible
import DiceLang.Proofs.Yields
import DiceLang.Proofs.Account
import DiceLang.Proofs.PhraseInduction
import DiceLang.Proofs.Places
import DiceLang.Proofs.SameTokens
import DiceLang.Proofs.Path
import DiceLang.Proofs.Script
import DiceLang.Proofs.Continuation
import DiceLang.Proofs.Honesty
import DiceLang.Proofs.HonestReading
import DiceLang.Proofs.HonestRoll
import DiceLang.Proofs.Cutting
import DiceLang.Proofs.ErrorReport
import DiceLang.Proofs.ExactArithmetic
import DiceLang.Proofs.Coercion
import DiceLang.Proofs.StableSort
import DiceLang.Proofs.Selection
import DiceLang.Proofs.Drawn
import DiceLang.Proofs.Passes
import DiceLang.Proofs.Conservation
import DiceLang.Proofs.SelectionLaws
import DiceLang.Proofs.Streak
import DiceLang.Proofs.Rank
import DiceLang.Proofs.Frozen
import DiceLang.Proofs.Repetition
import DiceLang.Proofs.Sizes
import DiceLang.Proofs.Splitting
import DiceLang.Proofs.Overlong
import DiceLang.Proofs.ListFunctions
import DiceLang.Proofs.PlainDice
import DiceLang.Proofs.CharacterRolls
