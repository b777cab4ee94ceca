/- GID: DashDrop/Foundation/Transactions
   generality: G
   anchors: []
   digest: A database connection with one transaction at most, and statements that may fail. -/

import Mathlib.Data.List.Basic
import Mathlib.Tactic.Common

set_option autoImplicit false
set_option relaxedAutoImplicit false

namespace DashDrop.Foundation.Transactions

variable {δ : Type}

/-- What is committed, and what the open transaction makes of it. -/
structure Connection (δ : Type) where
  committed : δ
  pending : Option δ

def Connection.visible (c : Connection δ) : δ := c.pending.getD c.committed

/-- A statement that fails leaves nothing behind; some failures take the open transaction along. -/
structure Failure where
  cause : String
  rollsBack : Bool
  deriving DecidableEq

inductive Statement (δ : Type) where
  | begin
  | commit
  /-- A statement that may refuse by itself, because of a value or a constraint. -/
  | run (f : δ → Except String δ)

def Connection.write (c : Connection δ) (d : δ) : Connection δ :=
  match c.pending with
  | some _ => { c with pending := some d }
  | none => { c with committed := d }

def Connection.execute (c : Connection δ) (fault : Option Failure) (statement : Statement δ) :
    Connection δ × Except String Unit :=
  match fault with
  | some failure =>
      ({ c with pending := if failure.rollsBack then none else c.pending }, .error failure.cause)
  | none =>
      match statement with
      | .begin =>
          match c.pending with
          | some _ => (c, .error "cannot start a transaction within a transaction")
          | none => ({ c with pending := some c.committed }, .ok ())
      | .commit =>
          match c.pending with
          | some d => (⟨d, none⟩, .ok ())
          | none => (c, .error "cannot commit - no transaction is active")
      | .run f =>
          match f c.visible with
          | .ok d => (c.write d, .ok ())
          | .error cause => (c, .error cause)

/-- Statements in turn, up to the first that fails; the faults are numbered from `n` on. -/
def Connection.executeAll (faults : ℕ → Option Failure) :
    ℕ → List (Statement δ) → Connection δ → Connection δ × Except String Unit
  | _, [], c => (c, .ok ())
  | n, statement :: rest, c =>
      match c.execute (faults n) statement with
      | (c', .ok ()) => executeAll faults (n + 1) rest c'
      | (c', .error cause) => (c', .error cause)

/-- What statements make of a database when nothing fails from outside. -/
def runAll : List (δ → Except String δ) → δ → Except String δ
  | [], d => .ok d
  | f :: fs, d =>
      match f d with
      | .ok next => runAll fs next
      | .error cause => .error cause

/-- The first fault among `count` statements. -/
def firstFault (faults : ℕ → Option Failure) : ℕ → ℕ → Option Failure
  | _, 0 => none
  | n, count + 1 => (faults n).or (firstFault faults (n + 1) count)

section Rules

variable {faults : ℕ → Option Failure} {d e e' : δ}

theorem executeAll_cons_fault {n : ℕ} {statement : Statement δ} {rest : List (Statement δ)}
    {c : Connection δ} {failure : Failure} (h : faults n = some failure) :
    Connection.executeAll faults n (statement :: rest) c =
      ({ c with pending := if failure.rollsBack then none else c.pending },
        .error failure.cause) := by
  simp [Connection.executeAll, Connection.execute, h]

theorem executeAll_cons_run {n : ℕ} {f : δ → Except String δ} {rest : List (Statement δ)}
    {c : Connection δ} (h : faults n = none) (ran : f c.visible = .ok d) :
    Connection.executeAll faults n (.run f :: rest) c =
      Connection.executeAll faults (n + 1) rest (c.write d) := by
  simp [Connection.executeAll, Connection.execute, h, ran]

theorem executeAll_cons_refused {n : ℕ} {f : δ → Except String δ} {rest : List (Statement δ)}
    {c : Connection δ} {cause : String} (h : faults n = none) (ran : f c.visible = .error cause) :
    Connection.executeAll faults n (.run f :: rest) c = (c, .error cause) := by
  simp [Connection.executeAll, Connection.execute, h, ran]

theorem executeAll_in_transaction (faults : ℕ → Option Failure) (d : δ)
    {fs : List (δ → Except String δ)} (runs : runAll fs e = .ok e') (n : ℕ) :
    (firstFault faults n (fs.length + 1) = none ∧
      Connection.executeAll faults n (fs.map .run ++ [.commit]) ⟨d, some e⟩ = (⟨e', none⟩, .ok ())) ∨
    ∃ failure, firstFault faults n (fs.length + 1) = some failure ∧
      ∃ c', Connection.executeAll faults n (fs.map .run ++ [.commit]) ⟨d, some e⟩ =
        (c', .error failure.cause) ∧
        c'.committed = d ∧ c'.pending.isSome = !failure.rollsBack := by
  induction fs generalizing e n with
  | nil =>
    obtain rfl : e = e' := by simpa [runAll] using runs
    cases fault : faults n with
    | none => exact .inl ⟨by simp [firstFault, fault], by
        simp [Connection.executeAll, Connection.execute, fault]⟩
    | some failure =>
      refine .inr ⟨failure, by simp [firstFault, fault], _, executeAll_cons_fault fault, rfl, ?_⟩
      cases failure.rollsBack <;> rfl
  | cons f fs ih =>
    cases fault : faults n with
    | none =>
      cases ran : f e with
      | error cause => simp [runAll, ran] at runs
      | ok next =>
        have later : runAll fs next = .ok e' := by simpa [runAll, ran] using runs
        have first : firstFault faults n (fs.length + 1 + 1) =
            firstFault faults (n + 1) (fs.length + 1) := by
          simp [firstFault, fault]
        have step : Connection.executeAll faults n ((f :: fs).map .run ++ [.commit]) ⟨d, some e⟩ =
            Connection.executeAll faults (n + 1) (fs.map .run ++ [.commit]) ⟨d, some next⟩ :=
          executeAll_cons_run fault ran
        rw [List.length_cons, first, step]
        exact ih later (n + 1)
    | some failure =>
      refine .inr ⟨failure, by simp [firstFault, fault], _, executeAll_cons_fault fault, rfl, ?_⟩
      cases failure.rollsBack <;> rfl

end Rules

end DashDrop.Foundation.Transactions
