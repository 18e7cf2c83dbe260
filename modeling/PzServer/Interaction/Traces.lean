import PzServer.Interaction.Ensures

/-!
# The moves a program adds

`World.Ensures` speaks of all moves so far. Where a program does not depend on the state, it is
simpler to speak of the moves it adds: `W.Traces G p ok err` says that, wherever `p` starts, all of
its moves satisfy `G`, and that those it has added when it ends satisfy `ok` or `err`. The rules
concatenate what the parts of a program add; lists are newest first.

## Main results

* `World.Traces.bind`, `World.Traces.tryCatch`, `World.traces_request` — the rules
* `World.Traces.then` — from added moves back to all of them
-/

namespace Interaction

variable {Q : Type} {A : Q → Type} {α β ε σ : Type}

namespace World

variable (W : World Q A σ)

/-- All moves of `p` satisfy `G`, and those it adds until it ends satisfy `ok`, or `err` where it
raises. -/
def Traces (G : Move Q A σ → Prop) (p : ExceptT ε (Program Q A) α)
    (ok : α → List (Move Q A σ) → Prop) (err : ε → List (Move Q A σ) → Prop) : Prop :=
  ∀ past s, W.Ensures (fun _ m => G m) p (fun a past' _ => ∃ new, past' = new ++ past ∧ ok a new)
    (fun e past' _ => ∃ new, past' = new ++ past ∧ err e new) past s

/-- All moves of `p` satisfy `G`. -/
def Only (G : Move Q A σ → Prop) (p : ExceptT ε (Program Q A) α) : Prop :=
  W.Traces G p (fun _ _ => True) (fun _ _ => True)

variable {W} {G : Move Q A σ → Prop}

/-! ### Rules for traces -/

section Traces

variable {p : ExceptT ε (Program Q A) α} {P P' : α → List (Move Q A σ) → Prop}
  {E E' : ε → List (Move Q A σ) → Prop}

theorem Traces.mono (h : W.Traces G p P E) (hok : ∀ a l, P a l → P' a l)
    (herr : ∀ e l, E e l → E' e l) : W.Traces G p P' E' := by
  intro past s
  refine (h past s).mono ?_ ?_
  · rintro a _ _ ⟨new, rfl, hnew⟩
    exact ⟨new, rfl, hok a new hnew⟩
  · rintro e _ _ ⟨new, rfl, hnew⟩
    exact ⟨new, rfl, herr e new hnew⟩

theorem traces_pure {a : α} (h : P a []) :
    W.Traces G (pure a : ExceptT ε (Program Q A) α) P E :=
  fun _ _ => ensures_pure ⟨[], rfl, h⟩

theorem traces_throw {e : ε} (h : E e []) :
    W.Traces G (throw e : ExceptT ε (Program Q A) α) P E :=
  fun _ _ => ensures_throw ⟨[], rfl, h⟩

theorem Traces.bind {f : α → ExceptT ε (Program Q A) β} {Pf : β → List (Move Q A σ) → Prop}
    (h : W.Traces G p P E)
    (hf : ∀ a l, P a l →
      W.Traces G (f a) (fun b l' => Pf b (l' ++ l)) (fun e l' => E' e (l' ++ l)))
    (herr : ∀ e l, E e l → E' e l) : W.Traces G (p >>= f) Pf E' := by
  intro past s
  refine .bind ((h past s).mono ?_ ?_)
  · rintro a _ s' ⟨new, rfl, hnew⟩
    refine (hf a new hnew (new ++ past) s').mono ?_ ?_
    · rintro b _ _ ⟨new', rfl, hnew'⟩
      exact ⟨new' ++ new, by simp, hnew'⟩
    · rintro e _ _ ⟨new', rfl, hnew'⟩
      exact ⟨new' ++ new, by simp, hnew'⟩
  · rintro e _ _ ⟨new, rfl, hnew⟩
    exact ⟨new, rfl, herr e new hnew⟩

theorem Traces.tryCatch {f : ε → ExceptT ε (Program Q A) α} (h : W.Traces G p P E)
    (hf : ∀ e l, E e l →
      W.Traces G (f e) (fun a l' => P a (l' ++ l)) (fun e l' => E' e (l' ++ l))) :
    W.Traces G (tryCatch p f) P E' := by
  intro past s
  refine ensures_tryCatch ((h past s).mono (fun _ _ _ ha => ha) ?_)
  rintro e _ s' ⟨new, rfl, hnew⟩
  refine (hf e new hnew (new ++ past) s').mono ?_ ?_
  · rintro a _ _ ⟨new', rfl, hnew'⟩
    exact ⟨new' ++ new, by simp, hnew'⟩
  · rintro e' _ _ ⟨new', rfl, hnew'⟩
    exact ⟨new' ++ new, by simp, hnew'⟩

theorem traces_request {q : Q} {P : A q → List (Move Q A σ) → Prop}
    (h : ∀ s c, W.allowed s q c = true →
      G (W.move s q c) ∧ P (W.answer s q c).1 [W.move s q c]) :
    W.Traces G (ExceptT.lift (request q)) P E := by
  intro past s
  refine ensures_request fun c hc => ?_
  obtain ⟨hG, hok⟩ := h s c hc
  exact ⟨hG, _, rfl, hok⟩

/-- What comes before a program is put before the moves it adds. -/
theorem Traces.then {f : α → ExceptT ε (Program Q A) β}
    {G' : List (Move Q A σ) → Move Q A σ → Prop} {Pf : β → List (Move Q A σ) → σ → Prop}
    {Ef : ε → List (Move Q A σ) → σ → Prop} {past : List (Move Q A σ)} {s : σ}
    (h : W.Traces G p P E) (hG : ∀ past m, G m → G' past m)
    (hf : ∀ a new s', P a new → W.Ensures G' (f a) Pf Ef (new ++ past) s')
    (herr : ∀ e new s', E e new → Ef e (new ++ past) s') :
    W.Ensures G' (p >>= f) Pf Ef past s := by
  refine .bind (((h past s).weaken fun past m => hG past m).mono ?_ ?_)
  · rintro a _ s' ⟨new, rfl, hnew⟩
    exact hf a new s' hnew
  · rintro e _ s' ⟨new, rfl, hnew⟩
    exact herr e new s' hnew

theorem Traces.only (h : W.Traces G p P E) : W.Only G p :=
  h.mono (fun _ _ _ => trivial) fun _ _ _ => trivial

end Traces

/-! ### Rules for guarantees alone -/

section Only

variable {p : ExceptT ε (Program Q A) α}

theorem Only.mono {G' : Move Q A σ → Prop} (h : W.Only G p) (hG : ∀ m, G m → G' m) :
    W.Only G' p :=
  fun past s => (h past s).weaken fun _ m => hG m

theorem only_pure {a : α} : W.Only G (pure a : ExceptT ε (Program Q A) α) := traces_pure trivial

theorem only_throw {e : ε} : W.Only G (throw e : ExceptT ε (Program Q A) α) :=
  traces_throw trivial

theorem only_throw_bind {e : ε} {f : α → ExceptT ε (Program Q A) β} :
    W.Only G ((throw e : ExceptT ε (Program Q A) α) >>= f) :=
  show W.Only G (throw e : ExceptT ε (Program Q A) β) from only_throw

theorem Only.bind {f : α → ExceptT ε (Program Q A) β} (h : W.Only G p)
    (hf : ∀ a, W.Only G (f a)) : W.Only G (p >>= f) :=
  Traces.bind h (fun a _ _ => hf a) fun _ _ _ => trivial

theorem Only.tryCatch {f : ε → ExceptT ε (Program Q A) α} (h : W.Only G p)
    (hf : ∀ e, W.Only G (f e)) : W.Only G (tryCatch p f) :=
  Traces.tryCatch h fun e _ _ => hf e

theorem Only.withCleanup {cleanup : Bool → ExceptT ε (Program Q A) Unit} (h : W.Only G p)
    (hc : ∀ succeeded, W.Only G (cleanup succeeded)) :
    W.Only G (Interaction.withCleanup p cleanup) := by
  intro past s
  have hrest : ∀ {ok : Bool} {new : List (Move Q A σ)} {s' : σ},
      W.Ensures (fun _ m => G m) (cleanup ok)
        (fun _ past' _ => ∃ new, past' = new ++ past ∧ True)
        (fun _ past' _ => ∃ new, past' = new ++ past ∧ True) (new ++ past) s' := by
    intro ok new s'
    refine (hc ok (new ++ past) s').mono ?_ ?_
    · rintro _ _ _ ⟨new', rfl, -⟩
      exact ⟨new' ++ new, by simp, trivial⟩
    · rintro _ _ _ ⟨new', rfl, -⟩
      exact ⟨new' ++ new, by simp, trivial⟩
  refine Ensures.withCleanup (h past s) ?_ ?_
  · rintro a _ s' - ⟨new, rfl, -⟩
    exact hrest
  · rintro e _ s' - ⟨new, rfl, -⟩
    exact hrest

theorem only_request {q : Q} (h : ∀ s c, W.allowed s q c = true → G (W.move s q c)) :
    W.Only G (ExceptT.lift (request q) : ExceptT ε (Program Q A) (A q)) :=
  traces_request fun s c hc => ⟨h s c hc, trivial⟩

/-- Only such moves, whatever came before. -/
theorem Only.ensures {G' : List (Move Q A σ) → Move Q A σ → Prop} {past : List (Move Q A σ)}
    {s : σ} (h : W.Only G p) (hG : ∀ past m, G m → G' past m) :
    W.Ensures G' p (fun _ _ _ => True) (fun _ _ _ => True) past s :=
  ((h past s).weaken fun past m => hG past m).mono (fun _ _ _ _ => trivial) fun _ _ _ _ => trivial

/-- What the moves of a program keep, about the disk and about the moves made so far. -/
theorem Only.preserves {G' : List (Move Q A σ) → Move Q A σ → Prop}
    {K : List (Move Q A σ) → σ → Prop} {past : List (Move Q A σ)} {s : σ} (h : W.Only G p)
    (hstep : ∀ past s q c, W.allowed s q c = true → G (W.move s q c) → K past s →
      G' past (W.move s q c) ∧ K (W.move s q c :: past) (W.answer s q c).2)
    (hs : K past s) : W.Ensures G' p (fun _ past' s' => K past' s') (fun _ past' s' => K past' s')
      past s := by
  refine Guarantees.mono ?_ (Guarantees.preserves hstep (h past s) hs)
  rintro (_ | _) _ _ hs'
  · exact hs'
  · exact hs'

/-- What the moves of a program keep, it keeps wherever it stops. -/
theorem Only.keeps {P : σ → Prop} (past : List (Move Q A σ)) {s : σ} (h : W.Only G p)
    (hstep : ∀ s q c, W.allowed s q c = true → G (W.move s q c) → P s → P (W.answer s q c).2)
    (hs : P s) :
    W.Ensures (fun past' m => past <:+ past' ∧ P m.before ∧ P m.after) p
      (fun _ _ s' => P s') (fun _ _ s' => P s') past s := by
  refine Guarantees.mono ?_ (Guarantees.keeps hstep (h past s) (List.suffix_refl _) hs)
  rintro (_ | _) _ _ hs'
  · exact hs'
  · exact hs'

end Only

end World

/-- One request whose reply may be an exception. -/
theorem World.only_ask {V : Q → Type} {W : World Q (fun q => Except ε (V q)) σ}
    {G : Move Q (fun q => Except ε (V q)) σ → Prop} {q : Q}
    (h : ∀ s c, W.allowed s q c = true → G (W.move s q c)) : W.Only G (askRaising q) := by
  intro past s
  refine World.ensures_ask fun c hc => ⟨h s c hc, ?_⟩
  cases (W.answer s q c).1 with
  | ok v => exact ⟨[W.move s q c], rfl, trivial⟩
  | error e => exact ⟨[W.move s q c], rfl, trivial⟩

end Interaction
