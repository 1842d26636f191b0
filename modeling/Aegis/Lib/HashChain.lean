/-
  HASH CHAINS COMMIT TO THEIR HISTORY.

  A record of type `ρ` carries its own digest and the digest of the record before it.  A list is
  `Linked` when each record names the digest of its predecessor.  Where a digest determines the
  record up to `Agree` and the digest it names (a collision-free hash of a text that holds both),
  two linked lists of one length with the same LAST digest agree position by position
  (`linked_agree`): the argument runs from the end, one record at a time.
-/
import Mathlib

namespace Aegis

namespace HashChain

variable {ρ δ : Type} (previous digest : ρ → δ)

/-- Each record names the digest of the one before it; the first one names `start`. -/
def Linked : δ → List ρ → Prop
  | _, [] => True
  | start, r :: rs => previous r = start ∧ Linked (digest r) rs

/-- The digest a list ends with: `start` when it is empty. -/
def lastDigest (start : δ) (rs : List ρ) : δ := (rs.getLast?.map digest).getD start

variable {previous digest}

theorem linked_concat {rs : List ρ} {r : ρ} {start : δ} :
    Linked previous digest start (rs ++ [r]) ↔
      Linked previous digest start rs ∧ previous r = lastDigest digest start rs := by
  induction rs generalizing start with
  | nil =>
    show previous r = start ∧ True ↔ True ∧ previous r = start
    rw [and_true, true_and]
  | cons a rs ih =>
    show previous a = start ∧ Linked previous digest (digest a) (rs ++ [r]) ↔
      (previous a = start ∧ Linked previous digest (digest a) rs) ∧ _
    rw [ih, and_assoc]
    cases hlast : rs.getLast? with
    | none =>
      obtain rfl := List.getLast?_eq_none_iff.mp hlast
      exact Iff.rfl
    | some b =>
      have hcons : (a :: rs).getLast? = some b := by rw [List.getLast?_cons, hlast]; rfl
      simp only [lastDigest, hlast, hcons, Option.map_some, Option.getD_some]

/-- **The last digest commits to the whole list.** -/
theorem linked_agree {Agree : ρ → ρ → Prop} {start start' : δ} :
    ∀ (xs ys : List ρ), xs.length = ys.length →
    (∀ a ∈ xs, ∀ b ∈ ys, digest a = digest b → Agree a b ∧ previous a = previous b) →
    Linked previous digest start xs → Linked previous digest start' ys →
    xs.getLast?.map digest = ys.getLast?.map digest → List.Forall₂ Agree xs ys := by
  intro xs
  induction xs using List.reverseRecOn with
  | nil =>
    intro ys hlen _ _ _ _
    obtain rfl := List.length_eq_zero_iff.mp hlen.symm
    exact List.Forall₂.nil
  | append_singleton xs a ih =>
    intro ys hlen hseal hx hy hlast
    rcases List.eq_nil_or_concat ys with rfl | ⟨ys, b, rfl⟩
    · simp at hlen
    · rw [List.concat_eq_append] at *
      rw [List.getLast?_concat, List.getLast?_concat] at hlast
      rw [List.length_append, List.length_append] at hlen
      have hlen' : xs.length = ys.length := Nat.add_right_cancel hlen
      obtain ⟨hagree, hprev⟩ := hseal a (by simp) b (by simp) (Option.some.inj hlast)
      rw [linked_concat] at hx hy
      rw [hx.2, hy.2] at hprev
      -- the digests before: both lists are empty, or neither is
      have hlast' : xs.getLast?.map digest = ys.getLast?.map digest := by
        cases hxs : xs.getLast? with
        | none =>
          obtain rfl := List.getLast?_eq_none_iff.mp hxs
          obtain rfl := List.length_eq_zero_iff.mp hlen'.symm
          rfl
        | some c =>
          cases hys : ys.getLast? with
          | none =>
            obtain rfl := List.getLast?_eq_none_iff.mp hys
            obtain rfl := List.length_eq_zero_iff.mp hlen'
            exact absurd hxs (by simp)
          | some d =>
            simp only [lastDigest, hxs, hys, Option.map_some, Option.getD_some] at hprev
            simp only [Option.map_some, hprev]
      have hinit := ih ys hlen' (fun c hc d hd => hseal c (List.mem_append_left _ hc) d
        (List.mem_append_left _ hd)) hx.1 hy.1 hlast'
      exact List.rel_append hinit (List.Forall₂.cons hagree List.Forall₂.nil)

end HashChain

end Aegis
