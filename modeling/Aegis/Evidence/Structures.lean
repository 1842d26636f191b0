/-
  THE BOUND OF A STRUCTURE, on objects with identities.

  What a YAML reader returns may share objects, or lead back to itself.  `_bound_structure` walks it with a
  stack of its own, counts what it takes off, and remembers the containers it has been at.

  It always ends, because it counts.  It returns exactly for finite TREES within the bounds: the stack is at
  every time the roots of a forest that is still to be walked, apart from what has been seen (`Fits`).
-/
import Mathlib
import Aegis.Evidence.Ingestion

namespace Aegis

namespace Evidence

namespace Objects

/-! ## Objects -/

/-- The identity of an object. -/
abbrev Ref := Nat

inductive Scalar where
  | str (value : String)
  | int (value : Int)
  | float (value : FloatText)
  | bool (value : Bool)
  | none

/-- A key of a mapping: a string, or another object. -/
inductive MapKey where
  | str (value : String)
  | other

/-- An object: a mapping, a list or a tuple, a scalar, or anything else. -/
inductive Item where
  | mapping (entries : List (MapKey × Ref))
  | sequence (items : List Ref)
  | scalar (value : Scalar)
  | other

/-- Not a string, or empty, or too long. -/
def MapKey.refused : MapKey → Bool
  | .str value => decide (value.toList.length = 0) || decide (512 < value.toList.length)
  | .other => true

section

variable (heap : Ref → Item) (maximumNodes : Nat)

/-- The loop of `_bound_structure`; the last child is looked at first. -/
def boundLoop (seen : List Ref) (stack : List (Ref × Nat)) (nodes : Nat) : Except QuarantineReason Unit :=
  match stack with
  | [] => .ok ()
  | (ref, depth) :: stack =>
    if maximumNodes < nodes + 1 ∨ 32 < depth then .error .size
    else
      match heap ref with
      | .mapping entries =>
        if ref ∈ seen then .error .malformed
        else if 256 < entries.length then .error .size
        else if entries.any (fun e => e.1.refused) = true then .error .malformed
        else boundLoop (ref :: seen) ((entries.map fun e => (e.2, depth + 1)).reverse ++ stack) (nodes + 1)
      | .sequence items =>
        if ref ∈ seen then .error .malformed
        else if 1000 < items.length then .error .size
        else boundLoop (ref :: seen) ((items.map fun r => (r, depth + 1)).reverse ++ stack) (nodes + 1)
      | .scalar _ => boundLoop seen stack (nodes + 1)
      | .other => .error .malformed
termination_by maximumNodes - nodes
decreasing_by all_goals omega

/-- `_bound_structure`. -/
def boundStructure (value : Ref) : Except QuarantineReason Unit := boundLoop heap maximumNodes [] [(value, 0)] 0

end

/-! ## Trees -/

/-- The tree that an object unfolds to, with the objects it comes from. -/
inductive Tree where
  | leaf (ref : Ref)
  | node (ref : Ref) (children : List Tree)

namespace Tree

def root : Tree → Ref
  | leaf ref => ref
  | node ref _ => ref

def size : Tree → Nat
  | leaf _ => 1
  | node _ children => 1 + (children.map fun t => t.size).sum

def depth : Tree → Nat
  | leaf _ => 0
  | node _ children => (children.map fun t => t.depth + 1).foldr max 0

def containers : Tree → List Ref
  | leaf _ => []
  | node ref children => ref :: children.flatMap fun t => t.containers

def refs : Tree → List Ref
  | leaf ref => [ref]
  | node ref children => ref :: children.flatMap fun t => t.refs

end Tree

/-- What an object contains, if it is a container. -/
def Item.children : Item → Option (List Ref)
  | .mapping entries => some (entries.map Prod.snd)
  | .sequence items => some items
  | .scalar _ | .other => none

/-- The bounds of one object. -/
def Item.Bounded : Item → Prop
  | .mapping entries => entries.length ≤ 256 ∧
      ∀ e ∈ entries, ∃ text, e.1 = .str text ∧ 1 ≤ text.toList.length ∧ text.toList.length ≤ 512
  | .sequence items => items.length ≤ 1000
  | .scalar _ => True
  | .other => False

/-- The tree is what its root contains, and what that contains. -/
def Tree.Unfolds (heap : Ref → Item) : Tree → Prop
  | .leaf ref => (heap ref).children = none
  | .node ref children => (heap ref).children = some (children.map Tree.root) ∧
      ∀ t ∈ children, t.Unfolds heap

/-- An unfolding below this depth, within the bounds. -/
structure Tree.Fine (heap : Ref → Item) (depth : Nat) (t : Tree) : Prop where
  unfolds : t.Unfolds heap
  bounded : ∀ r ∈ t.refs, (heap r).Bounded
  shallow : depth + t.depth ≤ 32

theorem foldr_max_le {l : List Nat} {n : Nat} : l.foldr max 0 ≤ n ↔ ∀ x ∈ l, x ≤ n := by
  induction l with
  | nil => simp
  | cons x l ih => simp [ih]

theorem Tree.size_pos (t : Tree) : 1 ≤ t.size := by
  cases t with
  | leaf ref => rw [Tree.size]
  | node ref children =>
    rw [Tree.size]
    omega

section

variable {heap : Ref → Item} {maximumNodes : Nat}

theorem fine_leaf {depth : Nat} {ref : Ref} : (Tree.leaf ref).Fine heap depth ↔
    (heap ref).children = none ∧ (heap ref).Bounded ∧ depth ≤ 32 := by
  constructor
  · intro h
    have hunfolds := h.unfolds
    have hshallow := h.shallow
    rw [Tree.Unfolds] at hunfolds
    rw [Tree.depth] at hshallow
    refine ⟨hunfolds, h.bounded ref ?_, hshallow⟩
    rw [Tree.refs]
    exact List.mem_singleton_self ref
  · rintro ⟨hunfolds, hbounded, hshallow⟩
    refine ⟨by rwa [Tree.Unfolds], ?_, by rwa [Tree.depth]⟩
    intro r hr
    rw [Tree.refs] at hr
    rwa [List.mem_singleton.mp hr]

theorem fine_node {depth : Nat} {ref : Ref} {children : List Tree} : (Tree.node ref children).Fine heap depth ↔
    (heap ref).children = some (children.map Tree.root) ∧ (heap ref).Bounded ∧ depth ≤ 32 ∧
      ∀ t ∈ children, t.Fine heap (depth + 1) := by
  have hdepth : depth + (Tree.node ref children).depth ≤ 32 ↔
      depth ≤ 32 ∧ ∀ t ∈ children, depth + 1 + t.depth ≤ 32 := by
    rw [Tree.depth]
    have hmax := foldr_max_le (l := children.map fun t => t.depth + 1) (n := 32 - depth)
    simp only [List.mem_map, forall_exists_index, and_imp, forall_apply_eq_imp_iff₂] at hmax
    constructor
    · intro h
      have hle : depth ≤ 32 := by omega
      refine ⟨hle, fun t ht => ?_⟩
      have := hmax.mp (by omega) t ht
      omega
    · rintro ⟨hle, hall⟩
      have := hmax.mpr fun t ht => by
        have := hall t ht
        omega
      omega
  constructor
  · intro h
    have hunfolds := h.unfolds
    have hbounded := h.bounded
    rw [Tree.Unfolds] at hunfolds
    rw [Tree.refs] at hbounded
    obtain ⟨hle, hbelow⟩ := hdepth.mp h.shallow
    refine ⟨hunfolds.1, hbounded ref List.mem_cons_self, hle, fun t ht => ⟨hunfolds.2 t ht, ?_, hbelow t ht⟩⟩
    intro r hr
    exact hbounded r (List.mem_cons_of_mem _ (List.mem_flatMap.mpr ⟨t, ht, hr⟩))
  · rintro ⟨hchildren, hbounded, hle, hall⟩
    refine ⟨?_, ?_, hdepth.mpr ⟨hle, fun t ht => (hall t ht).shallow⟩⟩
    · rw [Tree.Unfolds]
      exact ⟨hchildren, fun t ht => (hall t ht).unfolds⟩
    · intro r hr
      rw [Tree.refs] at hr
      rcases List.mem_cons.mp hr with rfl | hr
      · exact hbounded
      · obtain ⟨t, ht, hr⟩ := List.mem_flatMap.mp hr
        exact (hall t ht).bounded r hr

/-! ## One object taken off the stack -/

theorem key_refused {k : MapKey} : k.refused = false ↔
    ∃ text, k = .str text ∧ 1 ≤ text.toList.length ∧ text.toList.length ≤ 512 := by
  cases k with
  | str value =>
    simp only [MapKey.refused, Bool.or_eq_false_iff, decide_eq_false_iff_not, MapKey.str.injEq,
      exists_eq_left']
    omega
  | other => exact ⟨nofun, fun ⟨_, h, _⟩ => nomatch h⟩

theorem boundLoop_leaf {seen : List Ref} {stack : List (Ref × Nat)} {ref : Ref} {depth nodes : Nat}
    (hleaf : (heap ref).children = none) :
    boundLoop heap maximumNodes seen ((ref, depth) :: stack) nodes = .ok () ↔
      nodes + 1 ≤ maximumNodes ∧ depth ≤ 32 ∧ (heap ref).Bounded ∧
        boundLoop heap maximumNodes seen stack (nodes + 1) = .ok () := by
  rw [boundLoop]
  by_cases hbound : maximumNodes < nodes + 1 ∨ 32 < depth
  · rw [if_pos hbound]
    exact ⟨nofun, fun ⟨hnodes, hdepth, _⟩ => by omega⟩
  rw [if_neg hbound]
  have hnodes : nodes + 1 ≤ maximumNodes := by omega
  have hdepth : depth ≤ 32 := by omega
  cases hitem : heap ref with
  | mapping entries =>
    rw [hitem] at hleaf
    cases hleaf
  | sequence items =>
    rw [hitem] at hleaf
    cases hleaf
  | scalar value => exact ⟨fun h => ⟨hnodes, hdepth, trivial, h⟩, fun h => h.2.2.2⟩
  | other => exact ⟨nofun, fun h => h.2.2.1.elim⟩

theorem boundLoop_container {seen : List Ref} {stack : List (Ref × Nat)} {ref : Ref} {depth nodes : Nat}
    {children : List Ref} (hcontainer : (heap ref).children = some children) :
    boundLoop heap maximumNodes seen ((ref, depth) :: stack) nodes = .ok () ↔
      nodes + 1 ≤ maximumNodes ∧ depth ≤ 32 ∧ ref ∉ seen ∧ (heap ref).Bounded ∧
        boundLoop heap maximumNodes (ref :: seen)
          ((children.map fun r => (r, depth + 1)).reverse ++ stack) (nodes + 1) = .ok () := by
  rw [boundLoop]
  by_cases hbound : maximumNodes < nodes + 1 ∨ 32 < depth
  · rw [if_pos hbound]
    exact ⟨nofun, fun ⟨hnodes, hdepth, _⟩ => by omega⟩
  rw [if_neg hbound]
  have hnodes : nodes + 1 ≤ maximumNodes := by omega
  have hdepth : depth ≤ 32 := by omega
  cases hitem : heap ref with
  | mapping entries =>
    rw [hitem] at hcontainer
    obtain rfl : entries.map Prod.snd = children := Option.some.inj hcontainer
    dsimp only
    by_cases hseen : ref ∈ seen
    · rw [if_pos hseen]
      exact ⟨nofun, fun h => absurd hseen h.2.2.1⟩
    rw [if_neg hseen]
    by_cases hlong : 256 < entries.length
    · rw [if_pos hlong]
      exact ⟨nofun, fun h => absurd h.2.2.2.1.1 (not_le.mpr hlong)⟩
    rw [if_neg hlong]
    by_cases hkeys : entries.any (fun e => e.1.refused) = true
    · rw [if_pos hkeys]
      refine ⟨nofun, fun h => ?_⟩
      obtain ⟨e, he, hrefused⟩ := List.any_eq_true.mp hkeys
      exact absurd hrefused (Bool.eq_false_iff.mp (key_refused.mpr (h.2.2.2.1.2 e he)))
    rw [if_neg hkeys, List.map_map]
    have hall : ∀ e ∈ entries, e.1.refused = false := by
      intro e he
      by_contra hrefused
      exact hkeys (List.any_eq_true.mpr ⟨e, he, Bool.not_eq_false _ ▸ hrefused⟩)
    exact ⟨fun h => ⟨hnodes, hdepth, hseen, ⟨not_lt.mp hlong, fun e he => key_refused.mp (hall e he)⟩, h⟩,
      fun h => h.2.2.2.2⟩
  | sequence items =>
    rw [hitem] at hcontainer
    obtain rfl : items = children := Option.some.inj hcontainer
    dsimp only
    by_cases hseen : ref ∈ seen
    · rw [if_pos hseen]
      exact ⟨nofun, fun h => absurd hseen h.2.2.1⟩
    rw [if_neg hseen]
    by_cases hlong : 1000 < items.length
    · rw [if_pos hlong]
      exact ⟨nofun, fun h => absurd h.2.2.2.1 (not_le.mpr hlong)⟩
    rw [if_neg hlong]
    exact ⟨fun h => ⟨hnodes, hdepth, hseen, not_lt.mp hlong, h⟩, fun h => h.2.2.2.2⟩
  | scalar value =>
    rw [hitem] at hcontainer
    cases hcontainer
  | other =>
    rw [hitem] at hcontainer
    cases hcontainer

/-! ## The forest on the stack -/

/-- The stack is the roots of this forest: within the bounds, of containers that are distinct and have not
    been seen, and with no more nodes than may still be counted. -/
structure Fits (heap : Ref → Item) (maximumNodes : Nat) (seen : List Ref) (stack : List (Ref × Nat))
    (nodes : Nat) (forest : List (Tree × Nat)) : Prop where
  roots : forest.map (fun f => (f.1.root, f.2)) = stack
  fine : ∀ f ∈ forest, f.1.Fine heap f.2
  distinct : (forest.flatMap fun f => f.1.containers).Nodup
  fresh : ∀ r ∈ forest.flatMap fun f => f.1.containers, r ∉ seen
  count : nodes + (forest.map fun f => f.1.size).sum ≤ maximumNodes

theorem fits_leaf {seen : List Ref} {stack : List (Ref × Nat)} {ref : Ref} {depth nodes : Nat}
    (hleaf : (heap ref).children = none) :
    (∃ forest, Fits heap maximumNodes seen ((ref, depth) :: stack) nodes forest) ↔
      depth ≤ 32 ∧ (heap ref).Bounded ∧ ∃ forest, Fits heap maximumNodes seen stack (nodes + 1) forest := by
  constructor
  · rintro ⟨forest, h⟩
    obtain ⟨⟨t, d⟩, forest, rfl, hroot, hroots⟩ := List.map_eq_cons_iff.mp h.roots
    obtain ⟨rfl, rfl⟩ := Prod.mk.inj hroot
    have hfine := h.fine _ List.mem_cons_self
    have hcount := h.count
    have hdistinct := h.distinct
    have hfresh := h.fresh
    cases t with
    | node r children =>
      have hchildren := (fine_node.mp hfine).1
      rw [show (Tree.node r children).root = r from rfl] at hleaf
      rw [hleaf] at hchildren
      cases hchildren
    | leaf r =>
      obtain ⟨-, hbounded, hdepth⟩ := fine_leaf.mp hfine
      rw [List.map_cons, List.sum_cons, Tree.size] at hcount
      rw [List.flatMap_cons, Tree.containers, List.nil_append] at hdistinct hfresh
      exact ⟨hdepth, hbounded, forest, hroots, fun f hf => h.fine f (List.mem_cons_of_mem _ hf), hdistinct,
        hfresh, by omega⟩
  · rintro ⟨hdepth, hbounded, forest, h⟩
    refine ⟨(.leaf ref, depth) :: forest, ?_, ?_, ?_, ?_, ?_⟩
    · rw [List.map_cons, h.roots]
      rfl
    · intro f hf
      rcases List.mem_cons.mp hf with rfl | hf
      · exact fine_leaf.mpr ⟨hleaf, hbounded, hdepth⟩
      · exact h.fine f hf
    · rw [List.flatMap_cons, Tree.containers]
      exact h.distinct
    · rw [List.flatMap_cons, Tree.containers]
      exact h.fresh
    · have hcount := h.count
      rw [List.map_cons, List.sum_cons, Tree.size]
      omega

theorem fits_container {seen : List Ref} {stack : List (Ref × Nat)} {ref : Ref} {depth nodes : Nat}
    {children : List Ref} (hcontainer : (heap ref).children = some children) :
    (∃ forest, Fits heap maximumNodes seen ((ref, depth) :: stack) nodes forest) ↔
      depth ≤ 32 ∧ ref ∉ seen ∧ (heap ref).Bounded ∧ ∃ forest, Fits heap maximumNodes (ref :: seen)
        ((children.map fun r => (r, depth + 1)).reverse ++ stack) (nodes + 1) forest := by
  -- the children of a tree, on the stack
  have hperm : ∀ (ts : List Tree) (d : Nat) (rest : List (Tree × Nat)),
      ((ts.flatMap fun t => t.containers) ++ rest.flatMap fun f => f.1.containers).Perm
        (((ts.map fun t => (t, d)).reverse ++ rest).flatMap fun f => f.1.containers) := by
    intro ts d rest
    rw [List.flatMap_append]
    refine List.Perm.append_right _ ?_
    have hmap : (ts.flatMap fun t => t.containers) = (ts.map fun t => (t, d)).flatMap fun f => f.1.containers := by
      rw [List.flatMap_map]
    rw [hmap]
    exact (List.reverse_perm _).symm.flatMap_right _
  have hsum : ∀ (ts : List Tree) (d : Nat) (rest : List (Tree × Nat)),
      (((ts.map fun t => (t, d)).reverse ++ rest).map fun f => f.1.size).sum =
        (ts.map fun t => t.size).sum + (rest.map fun f => f.1.size).sum := by
    intro ts d rest
    rw [List.map_append, List.sum_append, List.map_reverse, List.sum_reverse, List.map_map]
    rfl
  constructor
  · rintro ⟨forest, h⟩
    obtain ⟨⟨t, d⟩, forest, rfl, hroot, hroots⟩ := List.map_eq_cons_iff.mp h.roots
    obtain ⟨rfl, rfl⟩ := Prod.mk.inj hroot
    have hfine := h.fine _ List.mem_cons_self
    have hcount := h.count
    have hdistinct := h.distinct
    have hfresh := h.fresh
    cases t with
    | leaf r =>
      have hnone := (fine_leaf.mp hfine).1
      rw [show (Tree.leaf r).root = r from rfl] at hcontainer
      rw [hcontainer] at hnone
      cases hnone
    | node r ts =>
      obtain ⟨hchildren, hbounded, hdepth, hbelow⟩ := fine_node.mp hfine
      obtain rfl : ts.map Tree.root = children := Option.some.inj (hchildren.symm.trans hcontainer)
      rw [List.map_cons, List.sum_cons, Tree.size] at hcount
      rw [List.flatMap_cons, Tree.containers, List.cons_append] at hdistinct hfresh
      obtain ⟨hnot, hrest⟩ := List.nodup_cons.mp hdistinct
      refine ⟨hdepth, hfresh r List.mem_cons_self, hbounded,
        (ts.map fun t => (t, d + 1)).reverse ++ forest, ?_, ?_, (hperm ts (d + 1) forest).nodup hrest, ?_, ?_⟩
      · rw [List.map_append, hroots, List.map_reverse, List.map_map, List.map_map]
        rfl
      · intro f hf
        rcases List.mem_append.mp hf with hf | hf
        · obtain ⟨t, ht, rfl⟩ := List.mem_map.mp (List.mem_reverse.mp hf)
          exact hbelow t ht
        · exact h.fine f (List.mem_cons_of_mem _ hf)
      · intro r' hr' hseen
        have hmem := (hperm ts (d + 1) forest).mem_iff.mpr hr'
        rcases List.mem_cons.mp hseen with rfl | hseen
        · exact hnot hmem
        · exact hfresh r' (List.mem_cons_of_mem _ hmem) hseen
      · rw [hsum]
        omega
  · rintro ⟨hdepth, hunseen, hbounded, forest, h⟩
    obtain ⟨front, rest, rfl, hfront, hrest⟩ := List.map_eq_append_iff.mp h.roots
    have hfrontDepth : ∀ f ∈ front, f.2 = depth + 1 := by
      intro f hf
      have hmem : (f.1.root, f.2) ∈ (children.map fun r => (r, depth + 1)).reverse := by
        rw [← hfront]
        exact List.mem_map_of_mem hf
      obtain ⟨r, -, hr⟩ := List.mem_map.mp (List.mem_reverse.mp hmem)
      exact (Prod.mk.inj hr).2.symm
    -- what stands for the children is a list of trees
    obtain ⟨ts, rfl⟩ : ∃ ts : List Tree, (ts.map fun t => (t, depth + 1)).reverse = front := by
      refine ⟨(front.map Prod.fst).reverse, ?_⟩
      rw [List.map_reverse, List.reverse_reverse, List.map_map]
      refine (List.map_congr_left fun f hf => ?_).trans (List.map_id front)
      rw [Function.comp_apply, ← hfrontDepth f hf]
      rfl
    have hchildren : ts.map Tree.root = children := by
      have hroots := congrArg (List.map Prod.fst) hfront
      rw [List.map_map, List.map_reverse, List.map_reverse, List.map_map, List.map_map] at hroots
      have := List.reverse_injective hroots
      rwa [show (Prod.fst ∘ fun r : Ref => (r, depth + 1)) = id from rfl, List.map_id] at this
    have hdistinct := (hperm ts (depth + 1) rest).symm.nodup h.distinct
    have hcount := h.count
    rw [hsum] at hcount
    refine ⟨(.node ref ts, depth) :: rest, ?_, ?_, ?_, ?_, ?_⟩
    · rw [List.map_cons, hrest]
      rfl
    · intro f hf
      rcases List.mem_cons.mp hf with rfl | hf
      · refine fine_node.mpr ⟨hchildren ▸ hcontainer, hbounded, hdepth, fun t ht => ?_⟩
        exact h.fine (t, depth + 1) (List.mem_append_left _ (List.mem_reverse.mpr (List.mem_map_of_mem ht)))
      · exact h.fine f (List.mem_append_right _ hf)
    · rw [List.flatMap_cons, Tree.containers, List.cons_append]
      refine List.nodup_cons.mpr ⟨fun hmem => ?_, hdistinct⟩
      exact h.fresh ref ((hperm ts (depth + 1) rest).mem_iff.mp hmem) List.mem_cons_self
    · rw [List.flatMap_cons, Tree.containers, List.cons_append]
      intro r hr
      rcases List.mem_cons.mp hr with rfl | hr
      · exact hunseen
      · exact fun hseen => h.fresh r ((hperm ts (depth + 1) rest).mem_iff.mp hr) (List.mem_cons_of_mem _ hseen)
    · rw [List.map_cons, List.sum_cons, Tree.size]
      omega

/-- The loop returns exactly when a forest fits its stack. -/
theorem boundLoop_ok_iff (seen : List Ref) (stack : List (Ref × Nat)) (nodes : Nat) (hnodes : nodes ≤ maximumNodes) :
    boundLoop heap maximumNodes seen stack nodes = .ok () ↔
      ∃ forest, Fits heap maximumNodes seen stack nodes forest := by
  induction hleft : maximumNodes - nodes generalizing seen stack nodes with
  | zero =>
    cases stack with
    | nil =>
      rw [boundLoop]
      exact ⟨fun _ => ⟨[], rfl, nofun, List.nodup_nil, nofun, hnodes⟩, fun _ => rfl⟩
    | cons top stack =>
      obtain ⟨ref, depth⟩ := top
      rw [boundLoop, if_pos (.inl (by omega))]
      refine ⟨nofun, fun ⟨forest, h⟩ => ?_⟩
      obtain ⟨f, forest, rfl, -, -⟩ := List.map_eq_cons_iff.mp h.roots
      have hcount := h.count
      have hsize := f.1.size_pos
      rw [List.map_cons, List.sum_cons] at hcount
      omega
  | succ left ih =>
    cases stack with
    | nil =>
      rw [boundLoop]
      exact ⟨fun _ => ⟨[], rfl, nofun, List.nodup_nil, nofun, hnodes⟩, fun _ => rfl⟩
    | cons top stack =>
      obtain ⟨ref, depth⟩ := top
      have hnext : nodes + 1 ≤ maximumNodes := by omega
      cases hchildren : (heap ref).children with
      | none =>
        rw [boundLoop_leaf hchildren, fits_leaf hchildren, ih _ _ _ hnext (by omega)]
        exact ⟨fun h => h.2, fun h => ⟨hnext, h⟩⟩
      | some children =>
        rw [boundLoop_container hchildren, fits_container hchildren, ih _ _ _ hnext (by omega)]
        exact ⟨fun h => h.2, fun h => ⟨hnext, h⟩⟩

/-- A list that contains itself is met a second time. -/
example : boundLoop (fun _ => .sequence [0]) 10 [] [(0, 0)] 0 = .error .malformed := by
  simp [boundLoop]

/-- **A structure is accepted exactly when it is a tree within the bounds.** -/
theorem boundStructure_returns_iff (heap : Ref → Item) (maximumNodes : Nat) (value : Ref) :
    boundStructure heap maximumNodes value = .ok () ↔
      ∃ t : Tree, t.root = value ∧ t.Unfolds heap ∧ t.containers.Nodup ∧ t.size ≤ maximumNodes ∧ t.depth ≤ 32 ∧
        ∀ r ∈ t.refs, (heap r).Bounded := by
  unfold boundStructure
  rw [boundLoop_ok_iff _ _ _ (Nat.zero_le _)]
  constructor
  · rintro ⟨forest, h⟩
    obtain ⟨⟨t, d⟩, forest, rfl, hroot, hroots⟩ := List.map_eq_cons_iff.mp h.roots
    obtain ⟨hvalue, hd⟩ := Prod.mk.inj hroot
    obtain rfl := List.map_eq_nil_iff.mp hroots
    obtain ⟨hunfolds, hbounded, hshallow⟩ := h.fine _ List.mem_cons_self
    have hdepth : d + t.depth ≤ 32 := hshallow
    have hcount := h.count
    have hdistinct := h.distinct
    simp only [List.map_cons, List.map_nil, List.sum_cons, List.sum_nil] at hcount
    simp only [List.flatMap_cons, List.flatMap_nil, List.append_nil] at hdistinct
    exact ⟨t, hvalue, hunfolds, hdistinct, by omega, by omega, hbounded⟩
  · rintro ⟨t, rfl, hunfolds, hdistinct, hsize, hdepth, hbounded⟩
    refine ⟨[(t, 0)], rfl, ?_, ?_, nofun, ?_⟩
    · intro f hf
      obtain rfl := List.mem_singleton.mp hf
      exact ⟨hunfolds, hbounded, (Nat.zero_add t.depth).symm ▸ hdepth⟩
    · simpa only [List.flatMap_cons, List.flatMap_nil, List.append_nil] using hdistinct
    · simp only [List.map_cons, List.map_nil, List.sum_cons, List.sum_nil]
      omega

end

end Objects

end Evidence

end Aegis
