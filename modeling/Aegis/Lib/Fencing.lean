/-
  FENCED CLAIMS: who may finish a piece of work whose holder may have died.

  A CLAIM on a key is held under a token until it expires.  After that anyone may take it over with a
  higher attempt, and nobody tells the old holder.  What keeps him out is that a completion must name
  the token, the fence and the attempt of the claim as it is stored.

  `Step` is one call on a store of claims.  A `Run` is a list of calls at times that never go back,
  starting with no claims.  Tokens are NAMES: `names key token attempt` says which attempt a token
  stands for, and a token stands for one attempt only.  Four laws are read off every run:

    * `kept`       -- a binding never changes, an attempt never goes down, a receipt stays;
    * `takeover`   -- a token changes only when the claim has run out, and then the attempt goes up;
    * `stale`      -- a completion under a token that was taken over, or with another fence or attempt,
                      is refused and changes nothing;
    * `exclusive`  -- two tokens whose last grants have not run out are the same token.
-/
import Mathlib
import Aegis.Lib.Machine

namespace Aegis

namespace Fencing

/-! ## Claims and calls -/

/-- What a store keeps under a key. -/
structure Claim (β φ τ ρ T : Type) where
  binding : β
  fence : φ
  attempt : Nat
  token : τ
  expires : T
  receipt : Option ρ

/-- What a call asks for. -/
inductive Request (κ φ τ : Type) where
  | claim (key : κ) (token : τ) (attempt : Nat)
  | complete (key : κ) (token : τ) (fence : φ) (attempt : Nat)

abbrev Store (κ β φ τ ρ T : Type) : Type := κ → Option (Claim β φ τ ρ T)

/-- One call: when, what, whether it was granted, and the claims around it. -/
structure Call (κ β φ τ ρ T : Type) where
  now : T
  request : Request κ φ τ
  granted : Bool
  before : Store κ β φ τ ρ T
  after : Store κ β φ τ ρ T

variable {κ β φ τ ρ T : Type}

/-- A completion names the stored claim. -/
def Matches (s : Store κ β φ τ ρ T) (key : κ) (token : τ) (fence : φ) (attempt : Nat)
    (c : Claim β φ τ ρ T) : Prop :=
  s key = some c ∧ c.token = token ∧ c.fence = fence ∧ c.attempt = attempt

/-- A claim asks with a token that stands for its attempt. -/
def Named (names : κ → τ → Nat → Prop) : Request κ φ τ → Prop
  | .claim key token attempt => names key token attempt
  | .complete .. => True

/-- The token was taken over. -/
def Superseded (h : List (Call κ β φ τ ρ T)) (key : κ) (token : τ) : Prop :=
  ∃ e ∈ h, ∃ c c', e.before key = some c ∧ c.token = token ∧ e.after key = some c' ∧ c'.token ≠ token

/-- A claim call that was granted, without a receipt, and until when. -/
def Grants (e : Call κ β φ τ ρ T) (key : κ) (token : τ) (expires : T) : Prop :=
  ∃ attempt c, e.request = .claim key token attempt ∧ e.granted = true ∧ e.after key = some c ∧
    c.token = token ∧ c.receipt = none ∧ c.expires = expires

/-- The last grant of a token. -/
def LastGrant (h : List (Call κ β φ τ ρ T)) (key : κ) (token : τ) (expires : T) : Prop :=
  ∃ pre e post, h = pre ++ e :: post ∧ Grants e key token expires ∧
    ∀ e' ∈ post, ∀ u, ¬Grants e' key token u

/-- What a later claim on the key has of an earlier one. -/
structure Follows (c c' : Claim β φ τ ρ T) : Prop where
  binding : c'.binding = c.binding
  fence : c'.fence = c.fence
  attempt : c.attempt ≤ c'.attempt
  receipt : ∀ r, c.receipt = some r → c'.receipt = some r

/-- Claims are never lost, and each one follows what it was. -/
def Grows (s s' : Store κ β φ τ ρ T) : Prop :=
  ∀ key c, s key = some c → ∃ c', s' key = some c' ∧ Follows c c'

theorem Follows.refl (c : Claim β φ τ ρ T) : Follows c c := ⟨rfl, rfl, le_refl _, fun _ h => h⟩

theorem Follows.trans {a b c : Claim β φ τ ρ T} (h : Follows a b) (h' : Follows b c) :
    Follows a c :=
  ⟨h'.binding.trans h.binding, h'.fence.trans h.fence, h.attempt.trans h'.attempt,
    fun r hr => h'.receipt r (h.receipt r hr)⟩

theorem Grows.refl (s : Store κ β φ τ ρ T) : Grows s s := fun _ c hc => ⟨c, hc, .refl c⟩

theorem Grows.trans {s s' s'' : Store κ β φ τ ρ T} (h : Grows s s') (h' : Grows s' s'') :
    Grows s s'' := by
  intro key c hc
  obtain ⟨c', hc', hfollows⟩ := h key c hc
  obtain ⟨c'', hc'', hfollows'⟩ := h' key c' hc'
  exact ⟨c'', hc'', hfollows.trans hfollows'⟩

/-- The token of every stored claim stands for its attempt. -/
def Minted (names : κ → τ → Nat → Prop) (s : Store κ β φ τ ρ T) : Prop :=
  ∀ key c, s key = some c → names key c.token c.attempt

/-- The last grant of a history one call longer is that call, or one before it. -/
theorem LastGrant.cases {h : List (Call κ β φ τ ρ T)}
    {e : Call κ β φ τ ρ T} {key : κ} {token : τ} {expires : T}
    (hgrant : LastGrant (h ++ [e]) key token expires) :
    Grants e key token expires ∨
      (LastGrant h key token expires ∧ ∀ u, ¬Grants e key token u) := by
  obtain ⟨pre, e', post, heq, hgrants, hlast⟩ := hgrant
  rcases List.eq_nil_or_concat post with rfl | ⟨post, last, rfl⟩
  · obtain ⟨rfl, hcons⟩ := List.append_inj' heq rfl
    rw [(List.cons.inj hcons).1]
    exact .inl hgrants
  · rw [List.concat_eq_append, ← List.cons_append, ← List.append_assoc] at heq
    obtain ⟨rfl, hcons⟩ := List.append_inj' heq rfl
    rw [(List.cons.inj hcons).1]
    exact .inr ⟨⟨pre, e', post, rfl, hgrants, fun e'' he'' => hlast e'' (by simp [he''])⟩,
      hlast last (by simp)⟩

/-! ## One step -/

section Updates

variable [DecidableEq κ]

/-- Storing a claim that follows the one in its place. -/
theorem Grows.update {s : Store κ β φ τ ρ T} {key : κ} {new : Claim β φ τ ρ T}
    (h : ∀ c, s key = some c → Follows c new) : Grows s (Function.update s key (some new)) := by
  intro key' c hc
  by_cases hkey : key' = key
  · subst hkey
    exact ⟨new, Function.update_self .., h c hc⟩
  · exact ⟨c, by rw [Function.update_of_ne hkey]; exact hc, .refl c⟩

theorem Minted.update {names : κ → τ → Nat → Prop} {s : Store κ β φ τ ρ T} (h : Minted names s)
    {key : κ} {c : Claim β φ τ ρ T} (hc : names key c.token c.attempt) :
    Minted names (Function.update s key (some c)) := by
  intro key' c' hc'
  by_cases hkey : key' = key
  · subst hkey
    rw [Function.update_self] at hc'
    rw [← Option.some.inj hc']
    exact hc
  · rw [Function.update_of_ne hkey] at hc'
    exact h key' c' hc'

end Updates

variable [DecidableEq κ] [LinearOrder T]

/-- A new claim may take the place of the stored one. -/
inductive Passes (now : T) (new : Claim β φ τ ρ T) : Option (Claim β φ τ ρ T) → Prop
  | fresh : Passes now new none
  | renewed (c : Claim β φ τ ρ T) (hopen : c.receipt = none) (hbinding : new.binding = c.binding)
    (hfence : new.fence = c.fence) (hlive : now < c.expires) (hown : c.token = new.token) :
    Passes now new (some c)
  | takenOver (c : Claim β φ τ ρ T) (hopen : c.receipt = none) (hbinding : new.binding = c.binding)
    (hfence : new.fence = c.fence) (hexpired : c.expires ≤ now) (hattempt : c.attempt < new.attempt) :
    Passes now new (some c)

/-- One call on a store. -/
inductive Step (now : T) (s : Store κ β φ τ ρ T) :
    Request κ φ τ → Bool → Store κ β φ τ ρ T → Prop
  | refused (r : Request κ φ τ) : Step now s r false s
  | settled {key : κ} {token : τ} {attempt : Nat} (c : Claim β φ τ ρ T) (hc : s key = some c)
    (hsettled : c.receipt.isSome = true) : Step now s (.claim key token attempt) true s
  | held {key : κ} {token : τ} {attempt : Nat} (c : Claim β φ τ ρ T) (hc : s key = some c)
    (hopen : c.receipt = none) (hlive : now < c.expires) (hown : c.token = token) :
    Step now s (.claim key token attempt) true s
  | granted {key : κ} {token : τ} {attempt : Nat} (c : Claim β φ τ ρ T) (htoken : c.token = token)
    (hattempt : c.attempt = attempt) (hopen : c.receipt = none) (hlive : now < c.expires)
    (hpasses : Passes now c (s key)) :
    Step now s (.claim key token attempt) true (Function.update s key (some c))
  | completed {key : κ} {token : τ} {fence : φ} {attempt : Nat} (c : Claim β φ τ ρ T)
    (hmatches : Matches s key token fence attempt c) (hopen : c.receipt = none) (r : ρ) :
    Step now s (.complete key token fence attempt) true
      (Function.update s key (some { c with receipt := some r }))
  | repeated {key : κ} {token : τ} {fence : φ} {attempt : Nat} (c : Claim β φ τ ρ T)
    (hmatches : Matches s key token fence attempt c) (hsettled : c.receipt.isSome = true) :
    Step now s (.complete key token fence attempt) true s

/-- A history of calls, and the claims it leaves. -/
inductive Run (names : κ → τ → Nat → Prop) :
    List (Call κ β φ τ ρ T) → Store κ β φ τ ρ T → Prop
  | nil : Run names [] (fun _ => none)
  | snoc {h : List (Call κ β φ τ ρ T)} {s s' : Store κ β φ τ ρ T} {now : T} {r : Request κ φ τ}
    {granted : Bool} (hrun : Run names h s) (hstep : Step now s r granted s')
    (htime : ∀ e ∈ h, e.now ≤ now) (hnamed : Named names r) :
    Run names (h ++ [⟨now, r, granted, s, s'⟩]) s'

/-- The laws of a history that leaves the claims `s`. -/
structure Laws (h : List (Call κ β φ τ ρ T)) (s : Store κ β φ τ ρ T) : Prop where
  kept : ∀ e ∈ h, Grows e.before e.after ∧ Grows e.after s
  takeover : ∀ e ∈ h, ∀ key c c', e.before key = some c → e.after key = some c' →
    c.token ≠ c'.token → c.receipt = none ∧ c.expires ≤ e.now ∧ c.attempt < c'.attempt
  stale : ∀ pre e post, h = pre ++ e :: post → ∀ key token fence attempt,
    e.request = .complete key token fence attempt →
    (Superseded pre key token ∨ ¬∃ c, Matches e.before key token fence attempt c) →
    e.granted = false ∧ e.after = e.before
  exclusive : ∀ key token token' expires expires' now, (∀ e ∈ h, e.now ≤ now) →
    (∀ c, s key = some c → c.receipt = none) → LastGrant h key token expires →
    LastGrant h key token' expires' → now < expires → now < expires' → token = token'

section

variable {names : κ → τ → Nat → Prop} {s s' : Store κ β φ τ ρ T} {now : T} {r : Request κ φ τ}
  {granted : Bool}

theorem Step.minted (h : Step now s r granted s') (hs : Minted names s) (hnamed : Named names r) :
    Minted names s' := by
  cases h with
  | refused | settled | held | repeated => exact hs
  | granted c htoken hattempt =>
    subst htoken hattempt
    exact hs.update hnamed
  | completed c hmatches => exact hs.update (hs _ c hmatches.1)

theorem Step.grows (hone : ∀ key t a b, names key t a → names key t b → a = b)
    (h : Step now s r granted s') (hs : Minted names s) (hnamed : Named names r) : Grows s s' := by
  cases h with
  | refused | settled | held | repeated => exact .refl _
  | @granted key token attempt new htoken hattempt hopen hlive hpasses =>
    refine .update fun c hc => ?_
    rw [hc] at hpasses
    cases hpasses with
    | renewed c hopen' hbinding hfence hlive' hown =>
      -- one token, so one attempt
      have hsame : c.attempt = new.attempt := by
        refine hone key token _ _ ?_ (hattempt ▸ hnamed)
        rw [← htoken, ← hown]
        exact hs key c hc
      exact ⟨hbinding, hfence, le_of_eq hsame, fun r hr => by rw [hopen'] at hr; cases hr⟩
    | takenOver c hopen' hbinding hfence hexpired hattempt' =>
      exact ⟨hbinding, hfence, hattempt'.le, fun r hr => by rw [hopen'] at hr; cases hr⟩
  | completed c hmatches hopen r =>
    refine .update fun c' hc' => ?_
    obtain rfl := Option.some.inj (hmatches.1.symm.trans hc')
    exact ⟨rfl, rfl, le_refl _, fun r' hr' => by rw [hopen] at hr'; cases hr'⟩

/-- A token changes only in a takeover. -/
theorem Step.takeover (h : Step now s r granted s') {key : κ} {c c' : Claim β φ τ ρ T}
    (hc : s key = some c) (hc' : s' key = some c') (hne : c.token ≠ c'.token) :
    c.receipt = none ∧ c.expires ≤ now ∧ c.attempt < c'.attempt := by
  have hsame : s' = s → False := by
    rintro rfl
    obtain rfl := Option.some.inj (hc.symm.trans hc')
    exact hne rfl
  cases h with
  | refused | settled | held | repeated => exact absurd rfl hsame
  | @granted key' token attempt new htoken hattempt hopen hlive hpasses =>
    by_cases hkey : key = key'
    · subst hkey
      rw [Function.update_self] at hc'
      obtain rfl := Option.some.inj hc'
      rw [hc] at hpasses
      cases hpasses with
      | renewed _ _ _ _ _ hown => exact absurd hown hne
      | takenOver _ hopen' _ _ hexpired hattempt' => exact ⟨hopen', hexpired, hattempt'⟩
    · rw [Function.update_of_ne hkey, hc] at hc'
      exact absurd (congrArg Claim.token (Option.some.inj hc')) hne
  | @completed key' token fence attempt new hmatches hopen r =>
    by_cases hkey : key = key'
    · subst hkey
      rw [Function.update_self] at hc'
      obtain rfl := Option.some.inj (hc.symm.trans hmatches.1)
      exact absurd (congrArg Claim.token (Option.some.inj hc')) hne
    · rw [Function.update_of_ne hkey, hc] at hc'
      exact absurd (congrArg Claim.token (Option.some.inj hc')) hne

/-- A completion that is granted names the stored claim; one that is not changes nothing. -/
theorem Step.completes {key : κ} {token : τ} {fence : φ} {attempt : Nat}
    (h : Step now s (.complete key token fence attempt) granted s') :
    (granted = true ∧ ∃ c, Matches s key token fence attempt c) ∨ (granted = false ∧ s' = s) := by
  cases h with
  | refused => exact .inr ⟨rfl, rfl⟩
  | completed c hmatches => exact .inl ⟨rfl, c, hmatches⟩
  | repeated c hmatches => exact .inl ⟨rfl, c, hmatches⟩

end

/-! ## Every run -/

variable {names : κ → τ → Nat → Prop} {h : List (Call κ β φ τ ρ T)} {s : Store κ β φ τ ρ T}

theorem Run.minted (hrun : Run names h s) : Minted names s := by
  induction hrun with
  | nil => intro key c hc; cases hc
  | snoc hrun hstep htime hnamed ih => exact hstep.minted ih hnamed

/-- The calls up to one of them are a run too, and that one is a step of it. -/
theorem Run.split (hrun : Run names h s) : ∀ pre e post, h = pre ++ e :: post →
    Run names pre e.before ∧ Step e.now e.before e.request e.granted e.after ∧
      Named names e.request := by
  induction hrun with
  | nil => intro pre e post heq; simp at heq
  | @snoc h s s' now r granted hrun hstep htime hnamed ih =>
    intro pre e post heq
    rcases List.eq_nil_or_concat post with rfl | ⟨post, last, rfl⟩
    · obtain ⟨rfl, hlast⟩ := List.append_inj' heq rfl
      obtain rfl := (List.cons.inj hlast).1
      exact ⟨hrun, hstep, hnamed⟩
    · rw [List.concat_eq_append, ← List.cons_append, ← List.append_assoc] at heq
      exact ih pre e post (List.append_inj' heq rfl).1

theorem Run.grows (hone : ∀ key t a b, names key t a → names key t b → a = b)
    (hrun : Run names h s) : ∀ e ∈ h, Grows e.before e.after ∧ Grows e.after s := by
  induction hrun with
  | nil => exact fun e he => absurd he List.not_mem_nil
  | snoc hrun hstep htime hnamed ih =>
    have hgrows := hstep.grows hone hrun.minted hnamed
    intro e he
    rcases List.mem_append.mp he with he | he
    · exact ⟨(ih e he).1, (ih e he).2.trans hgrows⟩
    · rw [List.mem_singleton.mp he]
      exact ⟨hgrows, .refl _⟩

/-- Where a token was granted, there is a claim. -/
theorem LastGrant.stored (hone : ∀ key t a b, names key t a → names key t b → a = b)
    (hrun : Run names h s) {key : κ} {token : τ} {expires : T}
    (hgrant : LastGrant h key token expires) : ∃ c, s key = some c := by
  obtain ⟨pre, e, post, rfl, ⟨attempt, c, -, -, hafter, -⟩, -⟩ := hgrant
  obtain ⟨c', hc', -⟩ := (hrun.grows hone e (by simp)).2 key c hafter
  exact ⟨c', hc'⟩

/-- **The holder.**  The last grant of a token is the stored claim, or it has run out. -/
theorem Run.holder (hone : ∀ key t a b, names key t a → names key t b → a = b)
    (hrun : Run names h s) {key : κ} : ∀ {token : τ} {expires : T} {c : Claim β φ τ ρ T},
    s key = some c → c.receipt = none → LastGrant h key token expires →
    (c.token = token ∧ c.expires = expires) ∨ ∃ e ∈ h, expires ≤ e.now := by
  induction hrun with
  | nil => intro token expires c hc; cases hc
  | @snoc h s s' now r granted hrun hstep htime hnamed ih =>
    intro token expires c hc hopen hgrant
    rcases hgrant.cases with ⟨attempt, c', -, -, hafter, htoken, -, hexpires⟩ | ⟨hprior, hnot⟩
    · obtain rfl := Option.some.inj (hc.symm.trans hafter)
      exact .inl ⟨htoken, hexpires⟩
    · have hearlier : ∀ {c₀ : Claim β φ τ ρ T}, s key = some c₀ → c₀.receipt = none →
          (c₀.token = token ∧ c₀.expires = expires) ∨
            ∃ e ∈ h ++ [⟨now, r, granted, s, s'⟩], expires ≤ e.now := by
        intro c₀ hc₀ hopen₀
        rcases ih hc₀ hopen₀ hprior with hsame | ⟨e, he, hexpired⟩
        · exact .inl hsame
        · exact .inr ⟨e, List.mem_append_left _ he, hexpired⟩
      cases hstep with
      | refused | settled | held | repeated => exact hearlier hc hopen
      | @granted key' token' attempt new htoken hattempt hnew hlive hpasses =>
        by_cases hkey : key = key'
        · subst hkey
          have hne : token' ≠ token := by
            rintro rfl
            exact hnot new.expires ⟨attempt, new, rfl, rfl, Function.update_self .., htoken, hnew, rfl⟩
          rw [Function.update_self] at hc
          obtain rfl := Option.some.inj hc
          obtain ⟨c₀, hc₀⟩ := hprior.stored hone hrun
          rw [hc₀] at hpasses
          cases hpasses with
          | renewed _ hopen₀ _ _ _ hown =>
            rcases hearlier hc₀ hopen₀ with ⟨hsame, -⟩ | hexpired
            · exact absurd ((htoken.symm.trans hown.symm).trans hsame) hne
            · exact .inr hexpired
          | takenOver _ hopen₀ _ _ hexpired₀ _ =>
            rcases hearlier hc₀ hopen₀ with ⟨-, hsame⟩ | hexpired
            · exact .inr ⟨_, List.mem_append_right _ List.mem_cons_self, hsame ▸ hexpired₀⟩
            · exact .inr hexpired
        · rw [Function.update_of_ne hkey] at hc
          exact hearlier hc hopen
      | @completed key' token' fence attempt c' hmatches hopen' r =>
        by_cases hkey : key = key'
        · subst hkey
          rw [Function.update_self] at hc
          rw [← Option.some.inj hc] at hopen
          cases hopen
        · rw [Function.update_of_ne hkey] at hc
          exact hearlier hc hopen

/-- A token that was taken over is not the stored one again. -/
theorem Run.superseded (hone : ∀ key t a b, names key t a → names key t b → a = b)
    (hrun : Run names h s) {key : κ} {token : τ} (hsuperseded : Superseded h key token)
    {c : Claim β φ τ ρ T} (hc : s key = some c) : c.token ≠ token := by
  rintro rfl
  obtain ⟨e, he, old, new, hbefore, hold, hafter, hne⟩ := hsuperseded
  obtain ⟨pre, post, rfl⟩ := List.append_of_mem he
  obtain ⟨hpre, hstep, hnamed⟩ := hrun.split pre e post rfl
  obtain ⟨-, -, hup⟩ := hstep.takeover hbefore hafter (by rw [hold]; exact Ne.symm hne)
  obtain ⟨c', hc', hfollows⟩ := (hrun.grows hone e he).2 key new hafter
  obtain rfl := Option.some.inj (hc.symm.trans hc')
  have hsame : old.attempt = c.attempt := by
    refine hone key c.token _ _ ?_ (hrun.minted key c hc)
    rw [← hold]
    exact hpre.minted key old hbefore
  have hattempt := hfollows.attempt
  omega

/-- **The laws of every run.** -/
theorem Run.laws (hone : ∀ key t a b, names key t a → names key t b → a = b)
    (hrun : Run names h s) : Laws h s := by
  constructor
  · exact hrun.grows hone
  · intro e he key c c' hc hc' hne
    obtain ⟨pre, post, rfl⟩ := List.append_of_mem he
    exact (hrun.split pre e post rfl).2.1.takeover hc hc' hne
  · intro pre e post heq key token fence attempt hrequest hstale
    obtain ⟨hpre, hstep, -⟩ := hrun.split pre e post heq
    rw [hrequest] at hstep
    rcases hstep.completes with ⟨hgranted, c, hmatches⟩ | hrefused
    · rcases hstale with hsuperseded | hno
      · exact absurd hmatches.2.1 (hpre.superseded hone hsuperseded hmatches.1)
      · exact absurd ⟨c, hmatches⟩ hno
    · exact hrefused
  · intro key token token' expires expires' now htime hopen hgrant hgrant' hlive hlive'
    obtain ⟨c, hc⟩ := hgrant.stored hone hrun
    -- neither grant has run out, so both are the stored claim
    have hcurrent : ∀ {t : τ} {u : T}, LastGrant h key t u → now < u → c.token = t := by
      intro t u hlast hu
      rcases hrun.holder hone hc (hopen c hc) hlast with ⟨hsame, -⟩ | ⟨e, he, hexpired⟩
      · exact hsame
      · exact absurd (hexpired.trans (htime e he)) (not_le.mpr hu)
    exact (hcurrent hgrant hlive).symm.trans (hcurrent hgrant' hlive')

/-! ## Machines whose calls are steps -/

section Machines

variable {σ α ω : Type} {step : σ → α → ω × σ} (view : σ → Store κ β φ τ ρ T) (time : α → T)
  (request : α → Request κ φ τ) (granted : ω → Bool)

/-- A call of a machine, seen as a call on a store of claims. -/
def Call.ofEntry (e : Machine.Entry σ α ω) : Call κ β φ τ ρ T :=
  ⟨time e.op, request e.op, granted e.result, view e.before, view e.after⟩

/-- **A machine whose every call is a step has runs for histories.** -/
theorem Run.ofMachine {s : σ} (hstart : view s = fun _ => none) {ops : List α}
    (hstep : ∀ s, ∀ a ∈ ops, Step (time a) (view s) (request a) (granted (step s a).1) (view (step s a).2))
    (htimes : (ops.map time).Pairwise (· ≤ ·)) (hnamed : ∀ a ∈ ops, Named names (request a)) :
    Run names ((Machine.trace step s ops).map (Call.ofEntry view time request granted))
      (view (Machine.final step s ops)) := by
  induction ops using List.reverseRecOn with
  | nil =>
    show Run names [] (view s)
    rw [hstart]
    exact .nil
  | append_singleton ops a ih =>
    rw [Machine.trace_concat, Machine.final_concat, List.map_append]
    rw [List.map_append, List.pairwise_append] at htimes
    refine .snoc (ih (fun s b hb => hstep s b (by simp [hb])) htimes.1
      fun b hb => hnamed b (by simp [hb])) (hstep _ a (by simp)) ?_ (hnamed a (by simp))
    intro c hc
    obtain ⟨e, he, rfl⟩ := List.mem_map.mp hc
    -- an entry of the history is one of the calls before the last
    obtain ⟨xs, ys, rfl, -⟩ := Machine.trace_mem he
    exact htimes.2.2 (time e.op) (by simp) (time a) (by simp)

end Machines

end Fencing

end Aegis
