/-
  READING A LIST PAGE BY PAGE.

  The items are in STRICTLY increasing order of a key.  A page is the first `limit` items whose key
  is past a cursor; the next page starts at the key of the last item read.  `after_page` says that
  nothing is lost and nothing is read twice: past the last item of a page are exactly the items the
  page left.  `follows_after` says it of a reader that is handed the next cursor with each page.
-/
import Mathlib

namespace Aegis

namespace Pages

variable {α : Type} {key : α → Nat}

/-- The items past a cursor. -/
def after (key : α → Nat) (cursor : Nat) (items : List α) : List α :=
  items.filter fun a => decide (cursor < key a)

/-- The keys increase along the list. -/
def Increasing (key : α → Nat) (items : List α) : Prop := items.Pairwise fun a b => key a < key b

theorem Increasing.sublist {xs ys : List α} (h : Increasing key ys) (hsub : xs.Sublist ys) :
    Increasing key xs := List.Pairwise.sublist hsub h

theorem Increasing.after {items : List α} (h : Increasing key items) (cursor : Nat) :
    Increasing key (after key cursor items) := h.sublist List.filter_sublist

/-- Only the keys matter. -/
theorem increasing_map {items : List α} : (items.map key).Pairwise (· < ·) ↔ Increasing key items :=
  List.pairwise_map

/-- Everything is past a cursor below every key. -/
theorem after_all {items : List α} {cursor : Nat} (h : ∀ a ∈ items, cursor < key a) :
    after key cursor items = items := by
  refine List.filter_eq_self.mpr fun a ha => ?_
  exact decide_eq_true (h a ha)

theorem after_cons_of_lt {a : α} {items : List α} {cursor : Nat} (h : cursor < key a) :
    after key cursor (a :: items) = a :: after key cursor items :=
  List.filter_cons_of_pos (decide_eq_true h)

theorem after_cons_of_not_lt {a : α} {items : List α} {cursor : Nat} (h : ¬cursor < key a) :
    after key cursor (a :: items) = after key cursor items :=
  List.filter_cons_of_neg (by simpa using h)

/-- A larger cursor can be applied after a smaller one. -/
theorem after_after {items : List α} {cursor cursor' : Nat} (h : cursor ≤ cursor') :
    after key cursor' (after key cursor items) = after key cursor' items := by
  rw [after, after, after, List.filter_filter]
  refine List.filter_congr fun a _ => ?_
  rw [Bool.eq_iff_iff, Bool.and_eq_true, decide_eq_true_eq, decide_eq_true_eq]
  omega

/-- A cursor cuts increasing items in two. -/
theorem Increasing.cut {items : List α} (h : Increasing key items) (cursor : Nat) :
    items = items.filter (fun a => decide (key a ≤ cursor)) ++ Pages.after key cursor items := by
  induction items with
  | nil => rfl
  | cons a items ih =>
    obtain ⟨hhead, htail⟩ := List.pairwise_cons.mp h
    by_cases ha : key a ≤ cursor
    · rw [List.filter_cons_of_pos (by simpa using ha), Pages.after,
        List.filter_cons_of_neg (by simpa using ha), List.cons_append]
      exact congrArg (List.cons a) (ih htail)
    · -- past the cursor: so are all the items after it
      have hpast : ∀ b ∈ a :: items, cursor < key b := by
        intro b hb
        rcases List.mem_cons.mp hb with rfl | hb
        · omega
        · have := hhead b hb; omega
      have hnone : (a :: items).filter (fun a => decide (key a ≤ cursor)) = [] := by
        refine List.filter_eq_nil_iff.mpr fun b hb => ?_
        have := hpast b hb
        simp only [decide_eq_true_eq]
        omega
      rw [hnone, after_all hpast]; rfl

/-- **The next page.**  Past the last item of a page of increasing items are the items left. -/
theorem after_last {done rest : List α} {last : α} (h : Increasing key (done ++ last :: rest)) :
    after key (key last) (done ++ last :: rest) = rest := by
  obtain ⟨-, htail, hcross⟩ := List.pairwise_append.mp h
  obtain ⟨hlast, -⟩ := List.pairwise_cons.mp htail
  rw [after, List.filter_append, List.filter_cons]
  have hdone : done.filter (fun a => decide (key last < key a)) = [] := by
    refine List.filter_eq_nil_iff.mpr fun a ha => ?_
    have hlt := hcross a ha last List.mem_cons_self
    simp only [decide_eq_true_eq]
    omega
  have hself : ¬decide (key last < key last) = true := by simp
  rw [hdone, if_neg hself, List.nil_append]
  exact List.filter_eq_self.mpr fun a ha => decide_eq_true (hlast a ha)

/-- The same from any cursor at which the page was read. -/
theorem after_page {items : List α} {cursor limit : Nat} {last : α}
    (h : Increasing key items) (hlast : ((after key cursor items).take limit).getLast? = some last) :
    after key (key last) items = (after key cursor items).drop limit := by
  obtain ⟨done, hdone⟩ := List.getLast?_eq_some_iff.mp hlast
  have hsplit : after key cursor items = done ++ last :: (after key cursor items).drop limit := by
    conv_lhs => rw [← List.take_append_drop limit (after key cursor items), hdone]
    rw [List.append_assoc]; rfl
  have hmem : last ∈ after key cursor items := by rw [hsplit]; simp
  have hcursor : cursor < key last := of_decide_eq_true (List.mem_filter.mp hmem).2
  rw [← after_after (le_of_lt hcursor)]
  have hinc := h.after cursor
  rw [hsplit] at hinc
  conv_lhs => rw [hsplit]
  exact after_last hinc

/-! ## Following pages -/

/-- Following a reader of pages from a cursor: the items of all its pages, up to the first page that has
    no next cursor. -/
inductive Follows (read : Nat → Option (List α × Option Nat)) : Nat → List α → Prop where
  | last {cursor : Nat} {page : List α} : read cursor = some (page, none) → Follows read cursor page
  | next {cursor cursor' : Nat} {page rest : List α} : read cursor = some (page, some cursor') →
      Follows read cursor' rest → Follows read cursor (page ++ rest)

/-- A reader decides what following it reads. -/
theorem Follows.unique {read : Nat → Option (List α × Option Nat)} {cursor : Nat} {xs ys : List α}
    (hx : Follows read cursor xs) (hy : Follows read cursor ys) : xs = ys := by
  induction hx generalizing ys with
  | last hread =>
    cases hy with
    | last hread' => rw [hread] at hread'; cases hread'; rfl
    | next hread' _ => rw [hread] at hread'; cases hread'
  | next hread _ ih =>
    cases hy with
    | last hread' => rw [hread] at hread'; cases hread'
    | next hread' hrest =>
      rw [hread] at hread'
      cases hread'
      rw [ih hrest]

/-- A page of at most `limit` items past the cursor; there is a next cursor when the page left some. -/
def page (key : α → Nat) (items : List α) (limit cursor : Nat) : List α × Option Nat :=
  ((after key cursor items).take limit,
    if limit < (after key cursor items).length then
      (((after key cursor items).take limit).getLast?).map key
    else none)

/-- **Following pages reads every item once, in order.**  Induction on the number of items left. -/
theorem follows_after {items : List α} {limit : Nat} {read : Nat → Option (List α × Option Nat)}
    (h : Increasing key items) (hlimit : 1 ≤ limit)
    (hread : ∀ cursor, read cursor = some (page key items limit cursor)) :
    ∀ (n cursor : Nat), (after key cursor items).length ≤ n →
      Follows read cursor (after key cursor items) := by
  intro n
  induction n with
  | zero =>
    intro cursor hn
    have hnil : after key cursor items = [] := List.length_eq_zero_iff.mp (Nat.le_zero.mp hn)
    have hlast : read cursor = some ([], none) := by
      rw [hread, page, hnil, List.take_nil, List.length_nil, if_neg (Nat.not_lt_zero _)]
    rw [hnil]
    exact .last hlast
  | succ n ih =>
    intro cursor hn
    by_cases hmore : limit < (after key cursor items).length
    · have hne : (after key cursor items).take limit ≠ [] := by
        intro hnil
        have hlength := congrArg List.length hnil
        rw [List.length_take, List.length_nil] at hlength
        omega
      obtain ⟨last, hlast⟩ : ∃ last, ((after key cursor items).take limit).getLast? = some last :=
        ⟨_, List.getLast?_eq_some_getLast hne⟩
      have hleft := after_page h hlast
      have hnext : read cursor = some ((after key cursor items).take limit, some (key last)) := by
        rw [hread, page, if_pos hmore, hlast]; rfl
      have hrest := ih (key last) (by rw [hleft, List.length_drop]; omega)
      rw [hleft] at hrest
      have hall := Follows.next hnext hrest
      rwa [List.take_append_drop] at hall
    · have hpage : read cursor = some (after key cursor items, none) := by
        rw [hread, page, if_neg hmore, List.take_of_length_le (by omega)]
      exact .last hpage

end Pages

end Aegis
