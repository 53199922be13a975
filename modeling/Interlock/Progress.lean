import Interlock.Store

/-!
# Progress of a call

A call of the library runs in atomic steps. One step of a call looks at the store and either goes
on to the call's next phase, ends the call with a reply or with a panic, cannot be taken yet, or
ends the process.

  * `Progress`: the outcome of a step;
  * `Progress.within`: the step of a call that is part of a larger one;
  * `Progress.orAbort`: the same step while its thread unwinds, when a panic ends the process.
-/

namespace Interlock

/-- The outcome of one atomic step of a call with phases `φ` and replies `ρ`. -/
inductive Progress (φ ρ : Type) where
  | next (s : Store) (phase : φ)
  | done (s : Store) (reply : ρ)
  | fault (s : Store) (why : Panic)
  | blocked
  | abort (s : Store)

namespace Progress

variable {φ ψ ρ τ : Type}

/-- A step of a part: its phases are phases of the whole, and its reply is handed on. -/
def within (wrap : φ → ψ) (finish : Store → ρ → Progress ψ τ) : Progress φ ρ → Progress ψ τ
  | next s phase => next s (wrap phase)
  | done s reply => finish s reply
  | fault s why => fault s why
  | blocked => blocked
  | abort s => abort s

/-- A step taken while its thread unwinds: a second panic ends the process. -/
def orAbort : Progress φ ρ → Progress φ ρ
  | fault s _ => abort s
  | p => p

/-- The store a step leaves, `s` itself if the step cannot be taken. -/
def storeFrom (s : Store) : Progress φ ρ → Store
  | next s' _ | done s' _ | fault s' _ | abort s' => s'
  | blocked => s

end Progress

namespace Store

variable {φ ρ : Type}

/-- A violation is logged and panics. -/
def violate (s : Store) (v : Violation) : Progress φ ρ :=
  .fault (s.report (.violation v)) (.violation v)

/-- A step that needs an initialized mutex; it cannot be taken before that. -/
def withLock (s : Store) (l : LockRef) (step : LockState → Progress φ ρ) : Progress φ ρ :=
  match s.lock l with
  | some lock => step lock
  | none => .blocked

/-- A step that needs a portable condition variable. -/
def withFallback (s : Store) (c : CondRef) (step : Fallback → Progress φ ρ) : Progress φ ρ :=
  match s.conds.get c with
  | .fallback f => step f
  | _ => .blocked

/-- A step that needs a platform condition variable. -/
def withNative (s : Store) (c : CondRef) (step : NativeQueue → Progress φ ρ) : Progress φ ρ :=
  match s.conds.get c with
  | .native q => step q
  | _ => .blocked

end Store

/-- What the environment decides in a step: which sleeper a single wakeup picks, and whether the
operating system refuses a new thread. -/
structure Choice where
  pick : Nat
  refuse : Bool
  deriving DecidableEq

end Interlock
