/-! # Masked numbers

    A number written to a log keeps its first four and last three characters. A
    number too short to hide anything in the middle is masked whole.
-/

namespace TopUp.Text

/-- Keeps four characters in front and three at the end of a number longer than
    seven; stars stand for every other character. -/
def maskNumber (s : String) : String :=
  let cs := s.toList
  if cs.length ≤ 7 then String.ofList (List.replicate cs.length '*')
  else
    String.ofList
      (cs.take 4 ++ List.replicate (cs.length - 7) '*' ++ cs.drop (cs.length - 3))

/-! ### Sanity checks -/

example : maskNumber "03001234567" = "0300****567" := by decide
example : maskNumber "1234567" = "*******" := by decide

end TopUp.Text
