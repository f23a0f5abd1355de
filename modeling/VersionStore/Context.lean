import VersionStore.Error

/-! Cancellation and deadlines.

The store never gives up by itself: each operation runs under a context that says when to
stop. A context holds a token, which its caller may cancel, and possibly a deadline.
Cancelling a token cancels the tokens made from it as children, before or afterwards, but
never the one it was made from. -/
namespace VersionStore

/-- A token: its own number, then those of the tokens it descends from. -/
structure Token where
  lineage : List Nat
  deriving DecidableEq

/-- How many tokens have been issued, and the numbers of those that were cancelled. -/
structure Tokens where
  issued : Nat := 0
  cancelled : List Nat := []
  deriving DecidableEq

namespace Tokens

/-- Issues a token that descends from no other. -/
def fresh (tokens : Tokens) : Token × Tokens :=
  (⟨[tokens.issued]⟩, {tokens with issued := tokens.issued + 1})

/-- Issues a child of a token. -/
def child (parent : Token) (tokens : Tokens) : Token × Tokens :=
  (⟨tokens.issued :: parent.lineage⟩, {tokens with issued := tokens.issued + 1})

def cancel (token : Token) (tokens : Tokens) : Tokens :=
  {tokens with cancelled := token.lineage.take 1 ++ tokens.cancelled}

/-- Whether a token was cancelled, or one it descends from. -/
def isCancelled (token : Token) (tokens : Tokens) : Bool :=
  token.lineage.any (tokens.cancelled.contains ·)

end Tokens

/-- What an operation runs under. -/
structure Context where
  token : Token
  deadline : Option Nat := none
  deriving DecidableEq

namespace Context

/-- Brings the deadline forward to an instant, unless it is earlier already. -/
def tighten (context : Context) (instant : Nat) : Context :=
  {context with deadline := some (match context.deadline with
    | some deadline => min deadline instant
    | none => instant)}

/-- A context that only its own caller ends. -/
def background (tokens : Tokens) : Context × Tokens :=
  let (token, tokens) := tokens.fresh
  (⟨token, none⟩, tokens)

/-- A context that ends at an instant. -/
def withDeadline (instant : Nat) (tokens : Tokens) : Context × Tokens :=
  let (context, tokens) := background tokens
  (context.tighten instant, tokens)

def withTimeout (timeout now : Nat) (tokens : Tokens) : Context × Tokens :=
  withDeadline (now + timeout) tokens

def withCancellation (token : Token) : Context := ⟨token, none⟩

/-- A context with the same deadline, whose token is a child of this one's. -/
def child (context : Context) (tokens : Tokens) : Context × Tokens :=
  let (token, tokens) := tokens.child context.token
  ({context with token := token}, tokens)

def cancel (context : Context) (tokens : Tokens) : Tokens := tokens.cancel context.token

def isOver (context : Context) (now : Nat) : Bool :=
  match context.deadline with
  | some deadline => decide (deadline ≤ now)
  | none => false

/-- Why the context has ended, if it has. That the caller gave up weighs more than that time
is up. -/
def ended? (context : Context) (tokens : Tokens) (now : Nat) : Option Error :=
  if tokens.isCancelled context.token then some Error.cancelledByCaller
  else if context.isOver now then some Error.deadlineExceeded
  else none

def check (context : Context) (tokens : Tokens) (now : Nat) : Result Unit :=
  match context.ended? tokens now with
  | some e => .error e
  | none => .ok ()

end Context

end VersionStore
