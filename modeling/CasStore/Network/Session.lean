import CasStore.Server.Script

/-!
# Sessions

A session is an open connection to one bucket.  A bucket is a namespace: the entry of a key and the
sequence of the bucket's versions have the bucket's name in front.

    the names of two entries of one bucket differ                    (qualified_injective)
-/

namespace CasStore

/-- An open connection to a bucket.  No two sessions of a backend have one serial. -/
structure Session where
  serial : Nat
  bucket : String
  deriving DecidableEq, Repr

namespace Session

/-! ## Algorithm -/

/-- The name of an entry of the bucket. -/
def qualified (s : Session) (name : String) : String := s.bucket ++ ":" ++ name

/-- The sequence of versions within a bucket. -/
def versionSequence : String := "__cas__"

/-- The names that a request about a key is sent with. -/
def namesFor (s : Session) (k : Key) : List String :=
  [s.qualified k.value, s.qualified versionSequence]

/-- The request that carries a command. -/
def request (s : Session) (c : Command) : Request :=
  ⟨s.qualified c.key.value, s.qualified versionSequence, c⟩

/-! ## Lemmas -/

theorem qualified_injective {s : Session} {a b : String} (h : s.qualified a = s.qualified b) : a = b :=
  String.append_right_inj _ |>.1 h

end Session

end CasStore
