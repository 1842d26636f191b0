/-
  RESERVATIONS AGAINST LIMITS.

  A class that keeps quotas holds a running amount for each tenant and remembers what it granted.  Seen
  through a `View` -- what a tenant has used, and the amount of each reservation it was granted -- a call
  either leaves both alone or grants one new reservation within the limit (`Moves`).  That is all a
  running amount needs to stay the sum over the distinct reservations granted (`Conserved`).

  Amounts are any ordered additive commutative monoid: a number of units, or a pair of numbers with a
  limit each.
-/
import Mathlib
import Aegis.Lib.Machine

namespace Aegis

namespace Quota

variable {σ τ κ A α ρ : Type} [AddCommMonoid A] [LE A]

/-- What there is to see of a state: the amount of every reservation granted, and what is used. -/
structure View (σ τ κ A : Type) where
  granted : σ → τ → κ → Option A
  used : σ → τ → A

/-- The amount granted to a reservation; nothing if it was not. -/
def View.amount (v : View σ τ κ A) (s : σ) (t : τ) (k : κ) : A := (v.granted s t k).getD 0

/-- A grant of the amount `a` to the reservation `k` of the tenant `t`. -/
structure Grants [DecidableEq τ] [DecidableEq κ] (v : View σ τ κ A) (limit : τ → A) (t : τ) (k : κ) (a : A)
    (s s' : σ) : Prop where
  fresh : v.granted s t k = none
  bound : v.used s t + a ≤ limit t
  granted : ∀ t' k', v.granted s' t' k' = if t' = t ∧ k' = k then some a else v.granted s t' k'
  used : ∀ t', v.used s' t' = if t' = t then v.used s t + a else v.used s t'

/-- What a call may do: nothing that can be seen, or a grant. -/
inductive Moves [DecidableEq τ] [DecidableEq κ] (v : View σ τ κ A) (limit : τ → A) (t : τ) (k : κ) (a : A)
    (s s' : σ) : Prop
  | kept (hgranted : v.granted s' = v.granted s) (hused : v.used s' = v.used s)
  | grants (h : Grants v limit t k a s s')

/-- What a tenant has used is the sum over the distinct reservations granted to it, and within the limit
    as soon as there is one. -/
def Conserved (v : View σ τ κ A) (limit : τ → A) (s : σ) : Prop :=
  ∀ t, ∃ ids : Finset κ, (∀ k, k ∈ ids ↔ (v.granted s t k).isSome = true) ∧
    v.used s t = ∑ k ∈ ids, v.amount s t k ∧ (ids.Nonempty → v.used s t ≤ limit t)

variable {v : View σ τ κ A} {limit : τ → A} {t : τ} {k : κ} {a : A} {s s' : σ}

theorem conserved_start (hgranted : ∀ t k, v.granted s t k = none) (hused : ∀ t, v.used s t = 0) :
    Conserved v limit s := by
  intro t
  refine ⟨∅, fun k => ?_, ?_, fun h => absurd h Finset.not_nonempty_empty⟩
  · rw [hgranted]
    simp
  · rw [hused, Finset.sum_empty]

variable [DecidableEq τ] [DecidableEq κ]

/-- A grant adds its reservation to the sum of its tenant. -/
theorem Grants.conserved (h : Grants v limit t k a s s') (hs : Conserved v limit s) :
    Conserved v limit s' := by
  intro t'
  obtain ⟨ids, hids, hsum, hlimit⟩ := hs t'
  by_cases htenant : t' = t
  · subst htenant
    have hnew : k ∉ ids := by
      intro hk
      have hsome := (hids k).mp hk
      rw [h.fresh] at hsome
      cases hsome
    refine ⟨insert k ids, fun k' => ?_, ?_, fun _ => ?_⟩
    · rw [Finset.mem_insert, hids, h.granted]
      by_cases hk : k' = k
      · simp [hk]
      · simp [hk]
    · rw [Finset.sum_insert hnew, h.used, if_pos rfl, hsum, add_comm]
      have hself : v.amount s' t' k = a := by
        unfold View.amount
        rw [h.granted, if_pos ⟨rfl, rfl⟩]
        rfl
      have hrest : ∀ k' ∈ ids, v.amount s' t' k' = v.amount s t' k' := by
        intro k' hk'
        have hne : k' ≠ k := fun heq => hnew (heq ▸ hk')
        unfold View.amount
        rw [h.granted, if_neg fun hboth => hne hboth.2]
      rw [hself, Finset.sum_congr rfl hrest]
    · rw [h.used, if_pos rfl]
      exact h.bound
  · refine ⟨ids, fun k' => ?_, ?_, fun hne => ?_⟩
    · rw [hids, h.granted, if_neg fun hboth => htenant hboth.1]
    · rw [h.used, if_neg htenant, hsum]
      refine Finset.sum_congr rfl fun k' _ => ?_
      unfold View.amount
      rw [h.granted, if_neg fun hboth => htenant hboth.1]
    · rw [h.used, if_neg htenant]
      exact hlimit hne

/-- **What a call does keeps the books.** -/
theorem Moves.conserved (h : Moves v limit t k a s s') (hs : Conserved v limit s) :
    Conserved v limit s' := by
  cases h with
  | kept hgranted hused =>
    intro t'
    obtain ⟨ids, hids, hsum, hlimit⟩ := hs t'
    refine ⟨ids, fun k' => ?_, ?_, ?_⟩
    · rw [hids, hgranted]
    · rw [hused, hsum]
      refine Finset.sum_congr rfl fun k' _ => ?_
      unfold View.amount
      rw [hgranted]
    · rw [hused]
      exact hlimit
  | grants h => exact h.conserved hs

/-- A call of one tenant leaves the others alone. -/
theorem Moves.others (h : Moves v limit t k a s s') {t' : τ} (hne : t' ≠ t) :
    v.used s' t' = v.used s t' ∧ v.granted s' t' = v.granted s t' := by
  cases h with
  | kept hgranted hused => exact ⟨congrFun hused t', congrFun hgranted t'⟩
  | grants h =>
    refine ⟨by rw [h.used, if_neg hne], funext fun k' => ?_⟩
    rw [h.granted, if_neg fun hboth => hne hboth.1]

/-- **The books are kept in every run** of calls that only move so. -/
theorem conserved_run {step : σ → α → ρ × σ} {tenant : α → τ} {key : α → κ} {amount : α → A}
    (hstep : ∀ s c, Moves v limit (tenant c) (key c) (amount c) s (step s c).2) {start : σ}
    (hstart : Conserved v limit start) (calls : List α) :
    Conserved v limit (Machine.final step start calls) :=
  Machine.run_invariant_all (fun s c hs => (hstep s c).conserved hs) start hstart calls

end Quota

end Aegis
