/-
  SLIDING WINDOWS.

  A window remembers admissions and forgets LAZILY: a visit drops from the front what is not later than its
  cutoff, and is refused when `limit` entries are left.  Nothing else is ever dropped.

  When times never go back, what is left at a visit is exactly the admissions within `span` before it
  (`Run.exact`).  Everything else follows from that: a visit is refused if and only if `limit` admissions of
  its own key lie in the span before it (`Run.refused_at`), and no stretch of times shorter than `span` holds
  more than `limit` of them (`Run.bounded`).

  Keys are kept apart, and a visit that the window lets pass may still go no further.  An entry of a window is
  whatever has a `time`.
-/
import Mathlib

namespace Aegis

namespace Window

variable {α : Type} {time : α → Int}

/-! ## Trimming -/

/-- `while window and window[0] <= cutoff: window.popleft()`. -/
def trim (time : α → Int) (cutoff : Int) (window : List α) : List α :=
  window.dropWhile fun x => decide (time x ≤ cutoff)

/-- What is later than a cutoff. -/
def later (time : α → Int) (cutoff : Int) (xs : List α) : List α :=
  xs.filter fun x => decide (cutoff < time x)

theorem later_append (cutoff : Int) (xs ys : List α) :
    later time cutoff (xs ++ ys) = later time cutoff xs ++ later time cutoff ys := List.filter_append _ _

/-- A later cutoff leaves nothing that an earlier one drops. -/
theorem later_later {cutoff cutoff' : Int} (h : cutoff ≤ cutoff') (xs : List α) :
    later time cutoff' (later time cutoff xs) = later time cutoff' xs := by
  rw [later, later, List.filter_filter, later]
  refine List.filter_congr fun x _ => ?_
  rw [← Bool.decide_and]
  refine decide_eq_decide.mpr ⟨fun hx => hx.1, fun hx => ⟨hx, ?_⟩⟩
  omega

/-- **In order, dropping from the front is dropping everywhere.** -/
theorem trim_eq_later {cutoff : Int} {xs : List α} (h : xs.Pairwise fun a b => time a ≤ time b) :
    trim time cutoff xs = later time cutoff xs := by
  induction xs with
  | nil => rfl
  | cons x xs ih =>
    obtain ⟨hfirst, hrest⟩ := List.pairwise_cons.mp h
    by_cases hx : time x ≤ cutoff
    · have hdrop : trim time cutoff (x :: xs) = trim time cutoff xs := by
        rw [trim, List.dropWhile_cons_of_pos (by simpa using hx), trim]
      rw [hdrop, ih hrest, later, later, List.filter_cons_of_neg]
      simpa using hx
    · have hkeep : trim time cutoff (x :: xs) = x :: xs := by
        rw [trim, List.dropWhile_cons_of_neg]
        simpa using hx
      rw [hkeep, later]
      refine (List.filter_eq_self.mpr fun y hy => ?_).symm
      rcases List.mem_cons.mp hy with rfl | hy
      · exact decide_eq_true (by omega)
      · have := hfirst y hy
        exact decide_eq_true (by omega)

/-! ## Visits -/

/-- A visit: its key, its time, and whether it goes on when the window lets it pass. -/
structure Visit (κ α : Type) where
  key : κ
  now : α
  proceeds : Bool

/-- What becomes of a visit: it is refused by the window, admitted, or stopped after it. -/
inductive Verdict where
  | refused | admitted | stopped
deriving DecidableEq, Repr

/-- Entering a window at a time. -/
def enter (time : α → Int) (limit : Nat) (span : Int) (window : List α) (now : α) (proceeds : Bool) :
    Verdict × List α :=
  let kept := trim time (time now - span) window
  if limit ≤ kept.length then (.refused, kept)
  else if proceeds = true then (.admitted, kept ++ [now])
  else (.stopped, kept)

theorem enter_cases (time : α → Int) (limit : Nat) (span : Int) (window : List α) (now : α) (proceeds : Bool) :
    let kept := trim time (time now - span) window
    (limit ≤ kept.length ∧ enter time limit span window now proceeds = (.refused, kept)) ∨
      (kept.length < limit ∧ enter time limit span window now proceeds = (.admitted, kept ++ [now])) ∨
      (kept.length < limit ∧ enter time limit span window now proceeds = (.stopped, kept)) := by
  intro kept
  by_cases hfull : limit ≤ kept.length
  · exact .inl ⟨hfull, if_pos hfull⟩
  · cases proceeds with
    | true => exact .inr (.inl ⟨not_le.mp hfull, by rw [enter]; exact (if_neg hfull).trans (if_pos rfl)⟩)
    | false =>
      refine .inr (.inr ⟨not_le.mp hfull, ?_⟩)
      rw [enter]
      exact (if_neg hfull).trans (if_neg (by decide))

variable {κ : Type} [DecidableEq κ]

/-- One visit. -/
def visit (time : α → Int) (limit : Nat) (span : Int) (s : κ → List α) (v : Visit κ α) :
    Verdict × (κ → List α) :=
  ((enter time limit span (s v.key) v.now v.proceeds).1,
    Function.update s v.key (enter time limit span (s v.key) v.now v.proceeds).2)

/-- A visit touches the window of its own key only. -/
theorem visit_other {limit : Nat} {span : Int} {s : κ → List α} {v : Visit κ α} {k : κ}
    (hk : v.key ≠ k) : (visit time limit span s v).2 k = s k := Function.update_of_ne (Ne.symm hk) _ _

theorem visit_own {limit : Nat} {span : Int} {s : κ → List α} {v : Visit κ α} :
    (visit time limit span s v).2 v.key = (enter time limit span (s v.key) v.now v.proceeds).2 :=
  Function.update_self ..

/-- Windows of other keys change nothing for a visit. -/
theorem visit_same (time : α → Int) (limit : Nat) (span : Int) {s s' : κ → List α} (v : Visit κ α)
    (h : s v.key = s' v.key) :
    (visit time limit span s v).1 = (visit time limit span s' v).1 ∧
      (visit time limit span s v).2 v.key = (visit time limit span s' v).2 v.key := by
  rw [visit_own, visit_own, visit, visit, h]
  exact ⟨rfl, rfl⟩

/-- The visits so far with what became of them, and the windows they leave. -/
inductive Run (time : α → Int) (limit : Nat) (span : Int) :
    List (Visit κ α × Verdict) → (κ → List α) → Prop
  | start : Run time limit span [] fun _ => []
  | snoc {h : List (Visit κ α × Verdict)} {s : κ → List α} (v : Visit κ α)
    (hrun : Run time limit span h s) :
    Run time limit span (h ++ [(v, (visit time limit span s v).1)]) (visit time limit span s v).2

/-- Times never go back. -/
def InOrder (time : α → Int) (h : List (Visit κ α × Verdict)) : Prop :=
  h.Pairwise fun a b => time a.1.now ≤ time b.1.now

/-- When visits of a key were admitted. -/
def admissions (h : List (Visit κ α × Verdict)) (k : κ) : List α :=
  (h.filter fun e => decide (e.1.key = k ∧ e.2 = .admitted)).map fun e => e.1.now

theorem admissions_append (h h' : List (Visit κ α × Verdict)) (k : κ) :
    admissions (h ++ h') k = admissions h k ++ admissions h' k := by
  rw [admissions, List.filter_append, List.map_append, admissions, admissions]

/-- The admission a visit adds: none unless it is admitted, and none to another key. -/
theorem admissions_single (v : Visit κ α) (verdict : Verdict) (k : κ) :
    admissions [(v, verdict)] k = if v.key = k ∧ verdict = .admitted then [v.now] else [] := by
  unfold admissions
  by_cases h : v.key = k ∧ verdict = .admitted
  · rw [if_pos h, List.filter_cons_of_pos (by simpa using h)]; rfl
  · rw [if_neg h, List.filter_cons_of_neg (by simpa using h)]; rfl

theorem mem_admissions {h : List (Visit κ α × Verdict)} {k : κ} {t : α} (ht : t ∈ admissions h k) :
    ∃ e ∈ h, e.1.now = t := by
  obtain ⟨e, he, rfl⟩ := List.mem_map.mp ht
  exact ⟨e, (List.mem_filter.mp he).1, rfl⟩

theorem admissions_ordered {h : List (Visit κ α × Verdict)} (horder : InOrder time h) (k : κ) :
    (admissions h k).Pairwise fun a b => time a ≤ time b :=
  (horder.filter _).map _ fun _ _ hab => hab

variable {limit : Nat} {span : Int} {h : List (Visit κ α × Verdict)} {s : κ → List α}

/-- **What is left of a window at a time is the admissions within the span before it.** -/
theorem Run.exact (hrun : Run time limit span h s) (horder : InOrder time h) (k : κ) {now : Int}
    (hnow : ∀ e ∈ h, time e.1.now ≤ now) :
    trim time (now - span) (s k) = later time (now - span) (admissions h k) := by
  induction hrun generalizing now with
  | start => rfl
  | @snoc h s v hrun ih =>
    obtain ⟨hbefore, -, hlast⟩ := List.pairwise_append.mp horder
    have hv : time v.now ≤ now := hnow _ (List.mem_append_right _ List.mem_cons_self)
    have hpast : ∀ e ∈ h, time e.1.now ≤ time v.now :=
      fun e he => hlast e he _ List.mem_cons_self
    rw [admissions_append, later_append, admissions_single]
    by_cases hk : v.key = k
    · subst hk
      -- the visit has trimmed its own window to the admissions before it
      have hwindow := ih hbefore hpast
      have hkept : (later time (time v.now - span) (admissions h v.key)).Pairwise
          fun a b => time a ≤ time b := (admissions_ordered hbefore v.key).filter _
      have hagain : trim time (now - span) (later time (time v.now - span) (admissions h v.key))
          = later time (now - span) (admissions h v.key) := by
        rw [trim_eq_later hkept, later_later (by omega)]
      rw [visit_own]
      obtain ⟨-, hcase⟩ | ⟨-, hcase⟩ | ⟨-, hcase⟩ := enter_cases time limit span (s v.key) v.now v.proceeds
      all_goals rw [show (visit time limit span s v).1 = (enter time limit span (s v.key) v.now v.proceeds).1
        from rfl, hcase]
      · rw [if_neg (fun h => by cases h.2), hwindow, hagain]
        exact (List.append_nil _).symm
      · have hordered : (later time (time v.now - span) (admissions h v.key) ++ [v.now]).Pairwise
            fun a b => time a ≤ time b := by
          refine List.pairwise_append.mpr ⟨hkept, List.pairwise_singleton _ _, fun a ha b hb => ?_⟩
          obtain ⟨e, he, rfl⟩ := mem_admissions (List.mem_filter.mp ha).1
          rw [List.mem_singleton.mp hb]
          exact hpast e he
        rw [if_pos ⟨rfl, rfl⟩, hwindow, trim_eq_later hordered, later_append, later_later (by omega)]
      · rw [if_neg (fun h => by cases h.2), hwindow, hagain]
        exact (List.append_nil _).symm
    · rw [visit_other hk, if_neg (fun h => hk h.1), ih hbefore fun e he => le_trans (hpast e he) hv]
      exact (List.append_nil _).symm

/-- What becomes of a visit is decided by the admissions of its own key in the span before it. -/
theorem Run.refused_iff (hrun : Run time limit span h s) (horder : InOrder time h) {v : Visit κ α}
    (hnow : ∀ e ∈ h, time e.1.now ≤ time v.now) :
    (visit time limit span s v).1 = .refused ↔
      limit ≤ (later time (time v.now - span) (admissions h v.key)).length := by
  rw [← hrun.exact horder v.key hnow]
  show (enter time limit span (s v.key) v.now v.proceeds).1 = .refused ↔ _
  obtain ⟨hfull, hcase⟩ | ⟨hroom, hcase⟩ | ⟨hroom, hcase⟩ :=
    enter_cases time limit span (s v.key) v.now v.proceeds
  · rw [hcase]
    exact ⟨fun _ => hfull, fun _ => rfl⟩
  · rw [hcase]
    exact ⟨fun h => (by cases h), fun h => absurd h (not_le.mpr hroom)⟩
  · rw [hcase]
    exact ⟨fun h => (by cases h), fun h => absurd h (not_le.mpr hroom)⟩

/-- A run is a run up to any of its visits. -/
theorem Run.split (hrun : Run time limit span h s) {pre post : List (Visit κ α × Verdict)}
    {e : Visit κ α × Verdict} (hsplit : h = pre ++ e :: post) :
    ∃ t, Run time limit span pre t ∧ e.2 = (visit time limit span t e.1).1 := by
  induction hrun generalizing post with
  | start => exact absurd hsplit.symm (by simp)
  | @snoc h s v hrun ih =>
    rcases List.eq_nil_or_concat post with rfl | ⟨post', last, rfl⟩
    · obtain ⟨rfl, hlast⟩ := List.append_inj' hsplit rfl
      obtain ⟨rfl, -⟩ := List.cons.inj hlast
      exact ⟨s, hrun, rfl⟩
    · rw [List.concat_eq_append, ← List.cons_append, ← List.append_assoc] at hsplit
      exact ih (List.append_inj' hsplit rfl).1

/-- The law of refusals, at any visit of a run. -/
theorem Run.refused_at (hrun : Run time limit span h s) (horder : InOrder time h)
    {pre post : List (Visit κ α × Verdict)} {e : Visit κ α × Verdict} (hsplit : h = pre ++ e :: post) :
    e.2 = .refused ↔ limit ≤ (later time (time e.1.now - span) (admissions pre e.1.key)).length := by
  obtain ⟨t, hpre, hverdict⟩ := hrun.split hsplit
  rw [hsplit] at horder
  obtain ⟨hbefore, -, hlast⟩ := List.pairwise_append.mp horder
  rw [hverdict]
  exact hpre.refused_iff hbefore fun x hx => hlast x hx _ List.mem_cons_self

/-- **No short stretch of times holds more than `limit` admissions of a key**: times of which no two are a
    span apart. -/
theorem Run.bounded (hrun : Run time limit span h s) (horder : InOrder time h) (k : κ) {p : α → Bool}
    (hp : ∀ a b, p a = true → p b = true → time a - span < time b) :
    (admissions h k).countP p ≤ limit := by
  induction hrun with
  | start => exact Nat.zero_le _
  | @snoc h s v hrun ih =>
    obtain ⟨hbefore, -, hlast⟩ := List.pairwise_append.mp horder
    have hpast : ∀ e ∈ h, time e.1.now ≤ time v.now :=
      fun e he => hlast e he _ List.mem_cons_self
    rw [admissions_append, List.countP_append, admissions_single]
    split
    · rename_i hadmitted
      obtain ⟨rfl, hverdict⟩ := hadmitted
      by_cases hv : p v.now = true
      · have hroom : ¬limit ≤ (later time (time v.now - span) (admissions h v.key)).length := by
          intro hfull
          rw [(hrun.refused_iff hbefore hpast).mpr hfull] at hverdict
          cases hverdict
        -- the other times of the stretch are within the span before this one
        have hwithin : (admissions h v.key).countP p
            ≤ (later time (time v.now - span) (admissions h v.key)).length := by
          rw [later, ← List.countP_eq_length_filter]
          refine List.countP_mono_left fun t _ ht => ?_
          exact decide_eq_true (hp _ _ hv ht)
        rw [List.countP_singleton, if_pos hv]
        omega
      · rw [List.countP_singleton, if_neg hv]
        exact ih hbefore
    · exact ih hbefore

end Window

end Aegis
