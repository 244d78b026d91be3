/-!
# Cancellation tokens

Every call to an activity carries a token. Cancelling a token is advice to give up; it reaches all
tokens derived from it. A token is known by where it comes from, so the set of cancelled tokens
alone says which calls are advised to give up. The tokens are those of `tokio_util`'s
`CancellationToken`; tasks that sleep until a token is cancelled are left to the activities.
-/

namespace Quiesce

/-- A cancellation token, by its origin. -/
inductive Token
  /-- The token of a suspend attempt, given by the attempt's generation. -/
  | attempt (generation : Nat)
  /-- The private token of a resume run. -/
  | run (id : Nat)
  /-- The token of a late registration's call. -/
  | late (call : Nat)
  /-- A token derived from another one. -/
  | child (parent : Token) (index : Nat)
deriving DecidableEq, Repr

/-- The token, or one that it derives from, is among the cancelled ones: in `tokio_util` a
`CancellationToken` is cancelled with its parent, and its parent not with it. -/
def Token.cancelledBy (cancelled : List Token) : Token → Bool
  | child parent index =>
    cancelled.contains (child parent index) || parent.cancelledBy cancelled
  | t => cancelled.contains t

namespace Token

theorem cancelledBy_child {cs : List Token} {t : Token} {i : Nat} :
    (child t i).cancelledBy cs = true ↔ child t i ∈ cs ∨ t.cancelledBy cs = true := by
  simp [cancelledBy]

theorem cancelledBy_mono {cs ds : List Token} (h : ∀ t ∈ cs, t ∈ ds) {t : Token} :
    t.cancelledBy cs = true → t.cancelledBy ds = true := by
  induction t with
  | child parent index ih =>
    rw [cancelledBy_child, cancelledBy_child]
    exact Or.imp (h _) ih
  | _ => simpa [cancelledBy] using h _

end Token

end Quiesce
