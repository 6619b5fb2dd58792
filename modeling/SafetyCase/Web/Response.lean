import SafetyCase.Editor.View
/-! Responses: a status and a body. Answers are wrapped as data; a failure tells its reason as detail, and
what goes with it. -/
namespace SafetyCase.Web

structure Response where
  status : Nat
  body : Json := .null
  deriving DecidableEq

namespace Response

def detail (status : Nat) (message : String) : Response := ⟨status, .object [("detail", .text message)]⟩

def notFound : Response := detail 404 "Not Found"

def wrongMethod : Response := detail 405 "Method Not Allowed"

def redirect : Response := ⟨307, .null⟩

def invalid (issues : List Intake.Issue) : Response :=
  ⟨422, .object [("detail", .list (issues.map (·.toJson)))]⟩

def data (status : Nat) (j : Json) : Response := ⟨status, .object [("data", j)]⟩

def ofFailure (f : Failure) : Response :=
  match f with
  | .read _ => detail 404 f.message
  | .gate (.blocked target blocking) =>
    ⟨409, .object [("detail", .text f.message), ("target", .text target),
      ("blocking", .list (blocking.map .text))]⟩
  | .nothingToUndo => detail 409 f.message
  | .refresh _ _ => detail 502 f.message
  | .restore _ => ⟨503, .object [("detail", .text f.message), ("retryable", .bool true)]⟩
  | .noCaseOpen | .write _ | .gate _ | .blankTitle | .reorderFailed _ => detail 422 f.message
  | .orderForRating => ⟨500, .null⟩

def ofResult (status : Nat) : Except Failure Json → Response
  | .ok j => data status j
  | .error f => ofFailure f

end Response
end SafetyCase.Web
