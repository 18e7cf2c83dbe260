import PzServer.Interaction.Traces

/-!
# What holds where a program returns

`World.Ensures` accounts for every way an execution can stop. Where only the normal end matters,
`W.Returns p P past s` says it alone: every execution of `p` that returns a value ends with `P`.
Executions that raise or are killed are free, so an error handler that always raises needs no
specification beyond `W.Raises`.

`Ensures.maintain` is the other half of such an argument: what single moves keep is kept by
programs, given what is known of their moves.

## Main results

* `World.Returns.seq`, `World.returns_tryCatch`, `World.returns_withCleanup`, `World.Raises.bind` —
  the rules
* `World.Returns.exec_done` — what they say about complete executions
* `World.Ensures.maintain` — a property that every move keeps
-/

namespace Interaction

variable {Q : Type} {A : Q → Type} {α β ε σ : Type}

namespace World

variable (W : World Q A σ)

/-- Where `p` returns a value, `P` holds. -/
def Returns (p : ExceptT ε (Program Q A) α) (P : α → List (Move Q A σ) → σ → Prop)
    (past : List (Move Q A σ)) (s : σ) : Prop :=
  W.Ensures (fun _ _ => True) p P (fun _ _ _ => True) past s

/-- `p` never returns a value. -/
def Raises (p : ExceptT ε (Program Q A) α) : Prop :=
  ∀ past s, W.Returns p (fun _ _ _ => False) past s

variable {W} {P P' : α → List (Move Q A σ) → σ → Prop} {past : List (Move Q A σ)} {s : σ}
  {p : ExceptT ε (Program Q A) α}

/-! ### Rules for normal returns -/

theorem Ensures.returns {G : List (Move Q A σ) → Move Q A σ → Prop}
    {err : ε → List (Move Q A σ) → σ → Prop} (h : W.Ensures G p P err past s) :
    W.Returns p P past s :=
  (h.weaken fun _ _ _ => trivial).mono (fun _ _ _ ha => ha) fun _ _ _ _ => trivial

theorem Returns.mono (h : W.Returns p P past s) (hP : ∀ a past s, P a past s → P' a past s) :
    W.Returns p P' past s :=
  Ensures.mono h hP fun _ _ _ _ => trivial

theorem Returns.and (h : W.Returns p P past s) (h' : W.Returns p P' past s) :
    W.Returns p (fun a past s => P a past s ∧ P' a past s) past s :=
  (Ensures.and h h').returns

theorem Returns.suffix (h : W.Returns p P past s) :
    W.Returns p (fun a past' s' => past <:+ past' ∧ P a past' s') past s :=
  (Ensures.suffix h).returns

theorem returns_trivial : W.Returns p (fun _ _ _ => True) past s := by
  refine Guarantees.mono ?_ guarantees_trivial
  rintro (e | a) _ _ -
  · exact trivial
  · exact trivial

theorem returns_pure {a : α} (h : P a past s) :
    W.Returns (pure a : ExceptT ε (Program Q A) α) P past s := h

theorem returns_throw {e : ε} : W.Returns (throw e : ExceptT ε (Program Q A) α) P past s :=
  trivial

/-- Sequencing. The second part starts where the first returns. -/
theorem Returns.seq {f : α → ExceptT ε (Program Q A) β}
    {R : β → List (Move Q A σ) → σ → Prop} (h : W.Returns p P past s)
    (hf : ∀ a past' s', past <:+ past' → P a past' s' → W.Returns (f a) R past' s') :
    W.Returns (p >>= f) R past s :=
  Ensures.seq h hf fun _ _ _ _ _ => trivial

/-- A protected part returns by itself, or its handler does. -/
theorem returns_tryCatch {f : ε → ExceptT ε (Program Q A) α} (h : W.Returns p P past s)
    (hf : ∀ e past' s', W.Returns (f e) P past' s') : W.Returns (tryCatch p f) P past s :=
  Ensures.handle h (fun _ _ _ _ ha => ha) fun e past' s' _ _ => hf e past' s'

/-- A protected part returns, and then its clean-up does. -/
theorem returns_withCleanup {cleanup : Bool → ExceptT ε (Program Q A) Unit}
    {R : α → List (Move Q A σ) → σ → Prop} (h : W.Returns p P past s)
    (hc : ∀ a past' s', past <:+ past' → P a past' s' →
      W.Returns (cleanup true) (fun _ => R a) past' s') :
    W.Returns (withCleanup p cleanup) R past s :=
  Ensures.withCleanup h hc fun _ _ _ _ _ => returns_trivial

/-- **Soundness** for complete executions that return. -/
theorem Returns.exec_done {a : α} {past' : List (Move Q A σ)} {s' : σ}
    (h : W.Returns p P past s) (he : W.Exec p.run past s (.done (.ok a)) past' s') :
    P a past' s' := by
  have hpost : W.Guarantees (fun _ _ => True) p.run _ past s := h
  exact hpost.exec_done he

/-! ### Rules for programs that always raise -/

theorem Raises.returns (h : W.Raises p) : W.Returns p P past s :=
  (h past s).mono fun _ _ _ ha => ha.elim

theorem raises_throw {e : ε} : W.Raises (throw e : ExceptT ε (Program Q A) α) :=
  fun _ _ => returns_throw

theorem Raises.bind {f : α → ExceptT ε (Program Q A) β} (h : ∀ a, W.Raises (f a)) :
    W.Raises (p >>= f) :=
  fun _ _ => returns_trivial.seq fun a _ _ _ _ => (h a).returns

/-! ### Properties that every move keeps -/

theorem Guarantees.maintain {G : List (Move Q A σ) → Move Q A σ → Prop} {N : Move Q A σ → Prop}
    {K : List (Move Q A σ) → σ → Prop}
    (hstep : ∀ past s q c, W.allowed s q c = true → G past (W.move s q c) →
      N (W.move s q c) → K past s → K (W.move s q c :: past) (W.answer s q c).2)
    {post post' : α → List (Move Q A σ) → σ → Prop} :
    ∀ {p : Program Q A α} {past : List (Move Q A σ)} {s : σ}, W.Guarantees G p post past s →
      W.Guarantees (fun _ m => N m) p post' past s → K past s →
      W.Guarantees G p (fun a past s => post a past s ∧ K past s) past s := by
  intro p
  induction p with
  | done a => exact fun h _ hs => ⟨h, hs⟩
  | ask q k ih =>
    intro past s h hN hs c hc
    obtain ⟨hG, hk⟩ := h c hc
    obtain ⟨hmove, hrest⟩ := hN c hc
    exact ⟨hG, ih _ hk hrest (hstep past s q c hc hG hmove hs)⟩

/-- What moves with the properties `G` and `N` keep, a program of such moves keeps. -/
theorem Ensures.maintain {G : List (Move Q A σ) → Move Q A σ → Prop} {N : Move Q A σ → Prop}
    {K : List (Move Q A σ) → σ → Prop} {err : ε → List (Move Q A σ) → σ → Prop}
    (h : W.Ensures G p P err past s) (hN : W.Only N p)
    (hstep : ∀ past s q c, W.allowed s q c = true → G past (W.move s q c) →
      N (W.move s q c) → K past s → K (W.move s q c :: past) (W.answer s q c).2)
    (hs : K past s) :
    W.Ensures G p (fun a past s => P a past s ∧ K past s) (fun e past s => err e past s ∧ K past s)
      past s := by
  refine Guarantees.mono ?_ (Guarantees.maintain hstep h (hN past s) hs)
  rintro (e | a) _ _ hr
  · exact hr
  · exact hr

end World

end Interaction
