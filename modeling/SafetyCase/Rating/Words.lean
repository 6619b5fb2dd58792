import SafetyCase.Rating
import SafetyCase.Json.Literal
import SafetyCase.Text.Blank
import SafetyCase.Text.Upper
/-! Severities and likelihoods in words. Any value is looked at through its text, without regard to
case, surrounding blanks, or whether words are joined by spaces, hyphens or underscores. -/
namespace SafetyCase

namespace Text

def replaceChar (old new : Char) (cs : List Char) : List Char := cs.map fun c => if c = old then new else c

def keyword (s : String) : String :=
  String.ofList (replaceChar ' ' '_' (upper (trim isBlank s.toList)))

end Text

inductive RatingFault where
  | unknownSeverity (value : Json)
  | unknownLikelihood (value : Json)
  deriving DecidableEq

def RatingFault.message : RatingFault → String
  | unknownSeverity value => "Unrecognised severity: " ++ value.literal ++ "."
  | unknownLikelihood value => "Unrecognised likelihood: " ++ value.literal ++ "."

namespace Rating

def token (value : Json) : String :=
  String.ofList (Text.replaceChar '-' '_' (Text.keyword value.plain).toList)

def severityWords : List (String × Severity) :=
  [("CATASTROPHIC", .A), ("HAZARDOUS", .B), ("MAJOR", .C), ("MINOR", .D), ("NEGLIGIBLE", .E)]

def likelihoodWords : List (String × Likelihood) :=
  [("CERTAIN", .certain), ("ALMOST_CERTAIN", .certain), ("LIKELY", .likely), ("POSSIBLE", .possible),
    ("UNLIKELY", .unlikely), ("RARE", .remote), ("EXTREMELY_UNLIKELY", .remote)]

def readSeverity (value : Json) : Except RatingFault Severity :=
  let word := token value
  match Severity.ofCode? word <|> severityWords.lookup word with
  | some s => .ok s
  | none => .error (.unknownSeverity value)

def readLikelihood (value : Json) : Except RatingFault Likelihood :=
  let word := token value
  match Likelihood.ofCode? word <|> likelihoodWords.lookup word with
  | some l => .ok l
  | none => .error (.unknownLikelihood value)

theorem tokenSeverity (s : Severity) : token (.text s.code) = s.code := by cases s <;> decide +kernel

theorem tokenLikelihood (l : Likelihood) : token (.text l.code) = l.code := by
  cases l <;> decide +kernel

theorem readSeverityCode (s : Severity) : readSeverity (.text s.code) = .ok s := by
  simp [readSeverity, tokenSeverity, Severity.codeRead]

theorem readLikelihoodCode (l : Likelihood) : readLikelihood (.text l.code) = .ok l := by
  simp [readLikelihood, tokenLikelihood, Likelihood.codeRead]

end Rating
end SafetyCase
