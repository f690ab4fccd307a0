import Mathlib.Logic.Basic

/-!
# Computations that fail on the way

A computation changes a state, and either returns or fails. What it has done before it fails stays
done, unless the computation itself takes it back.
-/

def Fallible (ε σ α : Type) := σ → Except ε α × σ

namespace Fallible

variable {ε σ α β γ : Type}

instance : Monad (Fallible ε σ) where
  pure a s := (.ok a, s)
  bind x f s :=
    match x s with
    | (.ok a, t) => f a t
    | (.error err, t) => (.error err, t)

def of (f : σ → Except ε α × σ) : Fallible ε σ α := f

/-- Go on with `handler` where `x` fails. -/
def orElse (x : Fallible ε σ α) (handler : ε → Fallible ε σ α) : Fallible ε σ α := fun s =>
  match x s with
  | (.ok a, t) => (.ok a, t)
  | (.error err, t) => handler err t

/-- Clean up where `x` fails, and fail as `x` does. -/
def cleaningUp (x : Fallible ε σ α) (cleanup : σ → σ) : Fallible ε σ α := fun s =>
  match x s with
  | (.ok a, t) => (.ok a, t)
  | (.error err, t) => (.error err, cleanup t)

section Rules

variable {x : Fallible ε σ α} {f : α → Fallible ε σ β} {s t : σ}

theorem bind_of_ok {a : α} (h : x s = (.ok a, t)) : (x >>= f) s = f a t := by
  change (match x s with | (.ok a, t) => f a t | (.error err, t) => (.error err, t)) = f a t
  rw [h]

theorem bind_of_error {err : ε} (h : x s = (.error err, t)) : (x >>= f) s = (.error err, t) := by
  change (match x s with | (.ok a, t) => f a t | (.error err, t) => (.error err, t)) = _
  rw [h]

theorem bind_bind (f : α → Fallible ε σ β) (g : β → Fallible ε σ γ) :
    x >>= f >>= g = x >>= fun a => f a >>= g := by
  funext s
  rcases hx : x s with ⟨err | a, t⟩
  · rw [bind_of_error hx, bind_of_error (bind_of_error hx)]
  · rw [bind_of_ok hx]
    rcases hf : f a t with ⟨err | b, u⟩
    · rw [bind_of_error hf, bind_of_error ((bind_of_ok hx).trans hf)]
    · rw [bind_of_ok hf, bind_of_ok ((bind_of_ok hx).trans hf)]

theorem orElse_of_ok {a : α} (h : x s = (.ok a, t)) (handler : ε → Fallible ε σ α) :
    x.orElse handler s = (.ok a, t) := by
  unfold orElse
  rw [h]

theorem orElse_of_error {err : ε} (h : x s = (.error err, t)) (handler : ε → Fallible ε σ α) :
    x.orElse handler s = handler err t := by
  unfold orElse
  rw [h]

/-! ## Success -/

def Succeeds (x : Fallible ε σ α) (s : σ) : Prop := ∃ a, (x s).1 = .ok a

@[simp] theorem succeeds_pure (a : α) : (pure a : Fallible ε σ α).Succeeds s := ⟨a, rfl⟩

theorem succeeds_bind_of_ok {a : α} (h : x s = (.ok a, t)) :
    (x >>= f).Succeeds s ↔ (f a).Succeeds t := by
  rw [Succeeds, bind_of_ok h, Succeeds]

theorem not_succeeds_of_error {err : ε} (h : x s = (.error err, t)) : ¬ x.Succeeds s := by
  rintro ⟨a, hok⟩
  rw [h] at hok
  cases hok

/-- What `x` returns satisfies `P`, whenever it returns. -/
def Returns (P : α → Prop) (x : Fallible ε σ α) : Prop := ∀ s a t, x s = (.ok a, t) → P a

theorem returns_pure {P : α → Prop} {a : α} (h : P a) :
    Returns P (pure a : Fallible ε σ α) := by
  intro s a' t hrun
  obtain ⟨hok, -⟩ := Prod.mk.inj hrun
  exact Except.ok.inj hok ▸ h

theorem Returns.bind {P : β → Prop} (hf : ∀ a, Returns P (f a)) : Returns P (x >>= f) := by
  intro s b t hrun
  rcases hx : x s with ⟨err | a, u⟩
  · rw [bind_of_error hx] at hrun
    cases hrun
  · rw [bind_of_ok hx] at hrun
    exact hf a u b t hrun

/-- Where `x` returns, what it returns and the state it leaves satisfy `P`. -/
def Ensures (P : α → σ → Prop) (x : Fallible ε σ α) (s : σ) : Prop :=
  ∀ a t, x s = (.ok a, t) → P a t

theorem ensures_true (x : Fallible ε σ α) (s : σ) : Ensures (fun _ _ => True) x s :=
  fun _ _ _ => trivial

theorem ensures_pure {P : α → σ → Prop} {a : α} (h : P a s) :
    Ensures P (pure a : Fallible ε σ α) s := by
  intro a' t hrun
  obtain ⟨hok, rfl⟩ := Prod.mk.inj hrun
  exact Except.ok.inj hok ▸ h

theorem Ensures.bind {P : α → σ → Prop} {R : β → σ → Prop} (hx : Ensures P x s)
    (hf : ∀ a t, P a t → Ensures R (f a) t) : Ensures R (x >>= f) s := by
  intro b u hrun
  rcases hx' : x s with ⟨err | a, t⟩
  · rw [bind_of_error hx'] at hrun
    cases hrun
  · rw [bind_of_ok hx'] at hrun
    exact hf a t (hx a t hx') b u hrun

theorem Ensures.and {P R : α → σ → Prop} (hP : Ensures P x s) (hR : Ensures R x s) :
    Ensures (fun a t => P a t ∧ R a t) x s :=
  fun a t hrun => ⟨hP a t hrun, hR a t hrun⟩

theorem Ensures.cleaningUp {P : α → σ → Prop} (h : Ensures P x s) (cleanup : σ → σ) :
    Ensures P (x.cleaningUp cleanup) s := by
  intro a t hrun
  unfold Fallible.cleaningUp at hrun
  rcases hx : x s with ⟨err | a', u⟩
  · rw [hx] at hrun
    cases hrun
  · rw [hx] at hrun
    exact h a t (hx.trans hrun)

/-! ## What is kept -/

/-- Whatever becomes of `x`, it keeps to `I`. -/
def Maintains (I : σ → Prop) (x : Fallible ε σ α) : Prop := ∀ s, I s → I (x s).2

theorem maintains_pure (I : σ → Prop) (a : α) : Maintains I (pure a : Fallible ε σ α) :=
  fun _ hs => hs

theorem Maintains.bind {I : σ → Prop} (hx : Maintains I x) (hf : ∀ a, Maintains I (f a)) :
    Maintains I (x >>= f) := by
  intro s hs
  have hafter := hx s hs
  rcases hrun : x s with ⟨err | a, t⟩
  · rw [hrun] at hafter
    rw [bind_of_error hrun]
    exact hafter
  · rw [hrun] at hafter
    rw [bind_of_ok hrun]
    exact hf a t hafter

theorem Maintains.cleaningUp {I : σ → Prop} (hx : Maintains I x) {cleanup : σ → σ}
    (hcleanup : ∀ t, I t → I (cleanup t)) : Maintains I (x.cleaningUp cleanup) := by
  intro s hs
  have hafter := hx s hs
  unfold Fallible.cleaningUp
  rcases hrun : x s with ⟨err | a, t⟩
  · rw [hrun] at hafter
    exact hcleanup t hafter
  · rw [hrun] at hafter
    exact hafter

theorem Maintains.ensures {I : σ → Prop} (hx : Maintains I x) (hs : I s) :
    Ensures (fun _ t => I t) x s := by
  intro a t hrun
  have hafter := hx s hs
  rwa [hrun] at hafter

/-- Whatever becomes of `x`, the view of the state stays the same. -/
def Keeps (view : σ → γ) (x : Fallible ε σ α) : Prop := ∀ c, Maintains (fun s => view s = c) x

theorem keeps_of_eq {view : σ → γ} (h : ∀ s, view (x s).2 = view s) : Keeps view x :=
  fun _ s hs => (h s).trans hs

theorem Keeps.eq {view : σ → γ} (h : Keeps view x) (s : σ) : view (x s).2 = view s := h _ s rfl

theorem Keeps.maintains (h : Keeps id x) (I : σ → Prop) : Maintains I x := by
  intro s hs
  have hsame : (x s).2 = s := h.eq s
  rwa [hsame]

theorem keeps_pure (view : σ → γ) (a : α) : Keeps view (pure a : Fallible ε σ α) :=
  fun _ => maintains_pure _ a

theorem Keeps.bind {view : σ → γ} (hx : Keeps view x) (hf : ∀ a, Keeps view (f a)) :
    Keeps view (x >>= f) := fun c => (hx c).bind fun a => hf a c

/-! ## Failures -/

/-- Where `x` fails, it does so in a state with `I`. -/
def FailsIn (I : σ → Prop) (x : Fallible ε σ α) (s : σ) : Prop :=
  ∀ err t, x s = (.error err, t) → I t

section FailsIn

variable {I : σ → Prop}

theorem failsIn_of_error {err : ε} (h : x s = (.error err, t)) (ht : I t) : FailsIn I x s := by
  intro err' t' hrun
  rw [h] at hrun
  exact (Prod.mk.inj hrun).2 ▸ ht

theorem failsIn_of_succeeds (h : x.Succeeds s) : FailsIn I x s :=
  fun _ _ hrun => absurd h (not_succeeds_of_error hrun)

theorem failsIn_bind_of_ok {a : α} (h : x s = (.ok a, t)) :
    FailsIn I (x >>= f) s ↔ FailsIn I (f a) t := by
  rw [FailsIn, bind_of_ok h, FailsIn]

theorem FailsIn.of_bind (h : FailsIn I (x >>= f) s) : FailsIn I x s :=
  fun err t hrun => h err t (bind_of_error hrun)

theorem FailsIn.bind {J : σ → Prop} (hx : FailsIn I x s) (hmaintains : Maintains J x) (hs : J s)
    (hf : ∀ a t, J t → FailsIn I (f a) t) : FailsIn I (x >>= f) s := by
  have hafter := hmaintains s hs
  rcases hrun : x s with ⟨err | a, t⟩
  · exact failsIn_of_error (bind_of_error hrun) (hx err t hrun)
  · rw [hrun] at hafter
    exact (failsIn_bind_of_ok hrun).mpr (hf a t hafter)

theorem FailsIn.bind_of_succeeds (hx : FailsIn I x s) (hf : ∀ a t, (f a).Succeeds t) :
    FailsIn I (x >>= f) s :=
  hx.bind (J := fun _ => True) (fun _ _ => trivial) trivial
    fun a t _ => failsIn_of_succeeds (hf a t)

theorem FailsIn.of_maintains {J : σ → Prop} (hmaintains : Maintains J x) (hs : J s)
    (himp : ∀ t, J t → I t) : FailsIn I x s := by
  intro err t hrun
  have hafter := hmaintains s hs
  rw [hrun] at hafter
  exact himp t hafter

theorem FailsIn.cleaningUp {cleanup : σ → σ} (h : FailsIn (fun t => I (cleanup t)) x s) :
    FailsIn I (x.cleaningUp cleanup) s := by
  intro err t hrun
  unfold Fallible.cleaningUp at hrun
  rcases hx : x s with ⟨err' | a, u⟩
  · rw [hx] at hrun
    exact (Prod.mk.inj hrun).2 ▸ h err' u hx
  · rw [hx] at hrun
    cases hrun

/-- A failure leaves no trace in the view of the state. -/
def Traceless (view : σ → γ) (x : Fallible ε σ α) (s : σ) : Prop :=
  FailsIn (fun t => view t = view s) x s

/-- What has left a trace, and is followed by nothing that takes it back, must not be followed by a
failure. The trace is in a part of the view. -/
theorem traceless_bind_iff_succeeds {δ : Type} {view : σ → γ} {part : σ → δ}
    (hpart : ∀ s t, view s = view t → part s = part t) {a : α} (h : x s = (.ok a, t))
    (hkeeps : Keeps part (f a)) (htrace : part t ≠ part s) :
    Traceless view (x >>= f) s ↔ (f a).Succeeds t := by
  rw [← succeeds_bind_of_ok h]
  refine ⟨fun htraceless => ?_, failsIn_of_succeeds⟩
  rcases hrun : (x >>= f) s with ⟨err | b, u⟩
  · have hview := hpart u s (htraceless err u hrun)
    rw [bind_of_ok h] at hrun
    have hkept := hkeeps.eq t
    rw [hrun] at hkept
    exact absurd (hkept.symm.trans hview) htrace
  · exact ⟨b, congrArg Prod.fst hrun⟩

end FailsIn

/-! ## Both ends -/

/-- What holds where `x` returns, and what holds where it fails. -/
structure Ends (P : α → σ → Prop) (I : σ → Prop) (x : Fallible ε σ α) (s : σ) : Prop where
  ensures : Ensures P x s
  failsIn : FailsIn I x s

section Ends

variable {P : α → σ → Prop} {R : β → σ → Prop} {I : σ → Prop}

theorem ends_pure {a : α} (h : P a s) : Ends P I (pure a : Fallible ε σ α) s :=
  ⟨ensures_pure h, failsIn_of_succeeds (succeeds_pure a)⟩

theorem Ends.bind (hx : Ends P I x s) (hf : ∀ a t, P a t → Ends R I (f a) t) :
    Ends R I (x >>= f) s := by
  refine ⟨hx.ensures.bind fun a t h => (hf a t h).ensures, fun err t hrun => ?_⟩
  rcases hx' : x s with ⟨err' | a, u⟩
  · rw [bind_of_error hx'] at hrun
    exact (Prod.mk.inj hrun).2 ▸ hx.failsIn err' u hx'
  · rw [bind_of_ok hx'] at hrun
    exact (hf a u (hx.ensures a u hx')).failsIn err t hrun

theorem Ends.cleaningUp {cleanup : σ → σ} (h : Ends P (fun t => I (cleanup t)) x s) :
    Ends P I (x.cleaningUp cleanup) s :=
  ⟨h.ensures.cleaningUp cleanup, h.failsIn.cleaningUp⟩

theorem Maintains.ends (hx : Maintains I x) (hs : I s) : Ends (fun _ => I) I x s :=
  ⟨hx.ensures hs, FailsIn.of_maintains hx hs fun _ ht => ht⟩

theorem Ends.imp {P' : α → σ → Prop} {I' : σ → Prop} (h : Ends P I x s)
    (hP : ∀ a t, P a t → P' a t) (hI : ∀ t, I t → I' t) : Ends P' I' x s :=
  ⟨fun a t hrun => hP a t (h.ensures a t hrun), fun err t hrun => hI t (h.failsIn err t hrun)⟩

end Ends

end Rules

end Fallible
