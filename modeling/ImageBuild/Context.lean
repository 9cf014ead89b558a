import ImageBuild.Version

/-!
# Contexts and cancellation

A token stands for the permission to go on. Tokens form trees: cancelling a
token cancels the tokens made from it, now and later, and nothing else. A
context is what a build engine knows about a request: a version and a token.

Contexts are written for any system of tokens (`TokenSystem`); the service runs
with that of `Cancellation`.
-/

namespace ImageBuild

/-- A token, with the numbers of itself and of the tokens it was made from. -/
structure Token where
  id : Nat
  ancestors : List Nat
  deriving DecidableEq

/-- A system of tokens. An element of `κ` is all that is known of the tokens at some time. -/
class TokenSystem (κ : Type) where
  /-- a token that depends on no other one -/
  fresh : κ → Token × κ
  /-- a token that is made from another one -/
  child : κ → Token → Token × κ
  /-- one more holder of a token -/
  clone : κ → Token → κ
  /-- one holder of a token fewer -/
  drop : κ → Token → κ
  cancel : κ → Token → κ
  isCancelled : κ → Token → Bool
  /-- whether somebody who waits for the cancellation goes on -/
  isReady : κ → Token → Bool

/-- The tokens that exist and those that were cancelled. -/
structure Cancellation where
  /-- the number of the next token -/
  next : Nat := 0
  cancelled : List Nat := []
  deriving DecidableEq

namespace Cancellation

/-- Makes a token that depends on no other one. -/
def fresh (c : Cancellation) : Token × Cancellation :=
  (⟨c.next, []⟩, { c with next := c.next + 1 })

/-- Makes a token that is cancelled with `t`. -/
def child (c : Cancellation) (t : Token) : Token × Cancellation :=
  (⟨c.next, t.id :: t.ancestors⟩, { c with next := c.next + 1 })

def cancel (c : Cancellation) (t : Token) : Cancellation :=
  { c with cancelled := t.id :: c.cancelled }

/-- Whether a token, or one that it was made from, was cancelled. -/
def isCancelled (c : Cancellation) (t : Token) : Bool :=
  (t.id :: t.ancestors).any fun i => c.cancelled.contains i

instance : TokenSystem Cancellation where
  fresh := fresh
  child := child
  clone c _ := c
  drop c _ := c
  cancel := cancel
  isCancelled := isCancelled
  isReady := isCancelled

end Cancellation

/-- What a build engine knows about a request. -/
structure Context where
  version : Version
  token : Token
  deriving DecidableEq

namespace Context

variable {κ : Type} [TokenSystem κ]

/-- A context with a token of its own. -/
def fresh (c : κ) (v : Version) : Context × κ :=
  let (t, c) := TokenSystem.fresh c
  (⟨v, t⟩, c)

/-- A context for a request that names no version. -/
def initial (c : κ) : Context × κ := fresh c .newest

/-- A context that is cancelled with this one and can be cancelled on its own. -/
def child (c : κ) (x : Context) : Context × κ :=
  let (t, c) := TokenSystem.child c x.token
  (⟨x.version, t⟩, c)

def withToken (c : κ) (v : Version) (t : Token) : Context × κ := (⟨v, t⟩, TokenSystem.clone c t)

def clone (c : κ) (x : Context) : Context × κ := (x, TokenSystem.clone c x.token)

def withVersion (x : Context) (v : Version) : Context := { x with version := v }

def drop (c : κ) (x : Context) : κ := TokenSystem.drop c x.token

def cancel (c : κ) (x : Context) : κ := TokenSystem.cancel c x.token

def isCancelled (c : κ) (x : Context) : Bool := TokenSystem.isCancelled c x.token

/-- Whether somebody who waits for the cancellation of a context goes on. -/
def isReady (c : κ) (x : Context) : Bool := TokenSystem.isReady c x.token

end Context
end ImageBuild
