import PzServer.Interaction.Ensures

/-!
# What holds under an assumption about the moves

Some properties of a program hold only of executions of a certain kind: at most one request fails,
a lock is free when it is asked for. An `Assumption` is a property of the moves made so far that is
lost for good once it is lost, and `W.Assuming H p ok err past s` speaks of the executions of `p`
that satisfy `H` to their end. In between the rules may use that the moves so far satisfy it, so a
request that would break the assumption needs no treatment.

## Main results

* `World.Assuming.seq`, `World.Assuming.handle`, `World.assuming_ask` — the rules
* `World.Assuming.exec_done` — what they say about complete executions
-/

namespace Interaction

variable {Q : Type} {A : Q → Type} {α β ε σ : Type}

/-- A property of the moves so far, newest first, that the earlier moves satisfy too. -/
structure Assumption (Q : Type) (A : Q → Type) (σ : Type) where
  Holds : List (Move Q A σ) → Prop
  of_cons : ∀ m past, Holds (m :: past) → Holds past

namespace Assumption

variable {H : Assumption Q A σ}

theorem of_suffix {past past' : List (Move Q A σ)} (hsuf : past <:+ past')
    (h : H.Holds past') : H.Holds past := by
  obtain ⟨later, rfl⟩ := hsuf
  induction later with
  | nil => exact h
  | cons m later ih => exact ih (H.of_cons m (later ++ past) h)

end Assumption

namespace World

variable (W : World Q A σ)

/-- What `p` does in the executions that satisfy the assumption. -/
def Assuming (H : Assumption Q A σ) (p : ExceptT ε (Program Q A) α)
    (ok : α → List (Move Q A σ) → σ → Prop) (err : ε → List (Move Q A σ) → σ → Prop)
    (past : List (Move Q A σ)) (s : σ) : Prop :=
  W.Ensures (fun _ _ => True) p (fun a past' s' => H.Holds past' → ok a past' s')
    (fun e past' s' => H.Holds past' → err e past' s') past s

variable {W} {H : Assumption Q A σ} {p : ExceptT ε (Program Q A) α}
  {ok ok' : α → List (Move Q A σ) → σ → Prop} {err err' : ε → List (Move Q A σ) → σ → Prop}
  {past : List (Move Q A σ)} {s : σ}

/-! ### Rules -/

theorem Assuming.mono (h : W.Assuming H p ok err past s)
    (hok : ∀ a past s, ok a past s → ok' a past s)
    (herr : ∀ e past s, err e past s → err' e past s) : W.Assuming H p ok' err' past s :=
  Ensures.mono h (fun a past s ha hH => hok a past s (ha hH))
    fun e past s he hH => herr e past s (he hH)

theorem assuming_pure {a : α} (h : ok a past s) :
    W.Assuming H (pure a : ExceptT ε (Program Q A) α) ok err past s :=
  ensures_pure fun _ => h

theorem assuming_throw {e : ε} (h : err e past s) :
    W.Assuming H (throw e : ExceptT ε (Program Q A) α) ok err past s :=
  ensures_throw fun _ => h

/-- Where the assumption is lost already, there is nothing to show. -/
theorem assuming_of_lost (h : ¬ H.Holds past) : W.Assuming H p ok err past s := by
  have htrivial : W.Guarantees (fun _ _ => True) p.run (fun _ _ _ => True) past s :=
    guarantees_trivial
  refine Guarantees.mono ?_ htrivial.suffix
  rintro (e | a) past' s' ⟨hsuf, -⟩
  · exact fun hH => absurd (Assumption.of_suffix hsuf hH) h
  · exact fun hH => absurd (Assumption.of_suffix hsuf hH) h

/-- What follows a program may assume that the moves so far satisfy the assumption. -/
theorem Assuming.intro (h : H.Holds past → W.Assuming H p ok err past s) :
    W.Assuming H p ok err past s := by
  by_cases hH : H.Holds past
  · exact h hH
  · exact assuming_of_lost hH

/-- Sequencing through the specification of the first part. -/
theorem Assuming.seq {f : α → ExceptT ε (Program Q A) β}
    {okp : α → List (Move Q A σ) → σ → Prop} {errp : ε → List (Move Q A σ) → σ → Prop}
    {ok : β → List (Move Q A σ) → σ → Prop} (h : W.Assuming H p okp errp past s)
    (hok : ∀ a past' s', okp a past' s' → W.Assuming H (f a) ok err past' s')
    (herr : ∀ e past' s', errp e past' s' → err e past' s') :
    W.Assuming H (p >>= f) ok err past s := by
  refine Ensures.seq h (fun a past' s' _ ha => ?_) fun e past' s' _ he hH => ?_
  · exact Assuming.intro fun hH => hok a past' s' (ha hH)
  · exact herr e past' s' (he hH)

/-- Handling through the specification of the protected part. -/
theorem Assuming.handle {f : ε → ExceptT ε (Program Q A) α}
    {okp : α → List (Move Q A σ) → σ → Prop} {errp : ε → List (Move Q A σ) → σ → Prop}
    (h : W.Assuming H p okp errp past s)
    (hok : ∀ a past' s', okp a past' s' → ok a past' s')
    (herr : ∀ e past' s', errp e past' s' → W.Assuming H (f e) ok err past' s') :
    W.Assuming H (tryCatch p f) ok err past s := by
  refine Ensures.handle h (fun a past' s' _ ha hH => ?_) fun e past' s' _ he => ?_
  · exact hok a past' s' (ha hH)
  · exact Assuming.intro fun hH => herr e past' s' (he hH)

/-- **Soundness** for complete executions that satisfy the assumption. -/
theorem Assuming.exec_done {r : Except ε α} {past' : List (Move Q A σ)} {s' : σ}
    (h : W.Assuming H p ok err past s) (he : W.Exec p.run past s (.done r) past' s')
    (hH : H.Holds past') :
    match r with
    | .ok a => ok a past' s'
    | .error e => err e past' s' := by
  have hguarantees : W.Guarantees (fun _ _ => True) p.run _ past s := h
  have hpost := hguarantees.exec_done he
  cases r with
  | ok a => exact hpost hH
  | error e => exact hpost hH

end World

/-! ### Requests whose reply may be an exception -/

/-- One request. Only the choices that keep the assumption matter. -/
theorem World.assuming_ask {V : Q → Type} {W : World Q (fun q => Except ε (V q)) σ}
    {H : Assumption Q (fun q => Except ε (V q)) σ} {q : Q}
    {past : List (Move Q (fun q => Except ε (V q)) σ)} {s : σ}
    {ok : V q → List (Move Q (fun q => Except ε (V q)) σ) → σ → Prop}
    {err : ε → List (Move Q (fun q => Except ε (V q)) σ) → σ → Prop}
    (h : ∀ c, W.allowed s q c = true → H.Holds (W.move s q c :: past) →
      match (W.answer s q c).1 with
      | .ok v => ok v (W.move s q c :: past) (W.answer s q c).2
      | .error e => err e (W.move s q c :: past) (W.answer s q c).2) :
    W.Assuming H (askRaising q) ok err past s := by
  refine World.ensures_ask fun c hc => ⟨trivial, ?_⟩
  have hpost := h c hc
  cases hr : (W.answer s q c).1 with
  | ok v =>
    rw [hr] at hpost
    exact hpost
  | error e =>
    rw [hr] at hpost
    exact hpost

end Interaction
