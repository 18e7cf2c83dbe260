import PzServer.Interaction.Ensures

/-!
# Triples over a view

Most specifications do not need all moves so far, only what they have shown. A *view* is a summary
of the moves and the state, and `W.Triple G view P p R` says: from every point whose view satisfies
`P`, the moves of `p` satisfy `G`, and where `p` returns a value the view satisfies `R`. What a
program that raises leaves behind is not described.

## Main results

* `World.Triple.seq`, `World.triple_pure`, `World.Triple.conseq` — the rules
* `World.triple_request` — one request
* `World.Triple.exec`, `World.Triple.exec_done` — soundness
-/

namespace Interaction

variable {Q : Type} {A : Q → Type} {α β ε σ τ ι : Type}

namespace World

variable (W : World Q A σ)

/-- From a view with `P`, the moves of `p` satisfy `G`, and where it returns the view has `R`. -/
def Triple (G : List (Move Q A σ) → Move Q A σ → Prop) (view : List (Move Q A σ) → σ → τ)
    (P : τ → Prop) (p : ExceptT ε (Program Q A) α) (R : α → τ → Prop) : Prop :=
  ∀ past s, P (view past s) →
    W.Ensures G p (fun a past' s' => R a (view past' s')) (fun _ _ _ => True) past s

variable {W} {G : List (Move Q A σ) → Move Q A σ → Prop} {view : List (Move Q A σ) → σ → τ}
  {P P' : τ → Prop} {p : ExceptT ε (Program Q A) α} {R R' : α → τ → Prop}

/-! ### Rules -/

theorem triple_pure {a : α} (h : ∀ t, P t → R a t) :
    W.Triple G view P (pure a : ExceptT ε (Program Q A) α) R :=
  fun past s hP => ensures_pure (h (view past s) hP)

theorem triple_throw {e : ε} : W.Triple G view P (throw e : ExceptT ε (Program Q A) α) R :=
  fun _ _ _ => ensures_throw trivial

theorem Triple.conseq (h : W.Triple G view P p R) (hP : ∀ t, P' t → P t)
    (hR : ∀ a t, R a t → R' a t) : W.Triple G view P' p R' :=
  fun past s hP' => (h past s (hP _ hP')).mono (fun a past' s' => hR a (view past' s'))
    fun _ _ _ _ => trivial

theorem Triple.seq {f : α → ExceptT ε (Program Q A) β} {S : β → τ → Prop}
    (h : W.Triple G view P p R) (hf : ∀ a, W.Triple G view (R a) (f a) S) :
    W.Triple G view P (p >>= f) S :=
  fun past s hP => (h past s hP).seq (fun a past' s' _ ha => hf a past' s' ha)
    fun _ _ _ _ _ => trivial

theorem triple_request {q : Q} {R : A q → τ → Prop}
    (h : ∀ past s c, W.allowed s q c = true → P (view past s) → G past (W.move s q c) ∧
      R (W.answer s q c).1 (view (W.move s q c :: past) (W.answer s q c).2)) :
    W.Triple G view P (ExceptT.lift (request q) : ExceptT ε (Program Q A) (A q)) R :=
  fun past s hP => ensures_request fun c hc => h past s c hc hP

/-! ### Soundness -/

variable {past past' : List (Move Q A σ)} {s s' : σ}

/-- The next move of an execution satisfies `G`, whatever it is. -/
theorem Triple.exec {q : Q} {k : A q → Program Q A (Except ε α)}
    (h : W.Triple G view P p R) (hP : P (view past s))
    (he : W.Exec p.run past s (.ask q k) past' s') (c : W.Choice q)
    (hc : W.allowed s' q c = true) : G past' (W.move s' q c) := by
  have hguarantees : W.Guarantees G p.run _ past s := h past s hP
  exact ((hguarantees.exec he).1 c hc).1

theorem Triple.exec_done {a : α} (h : W.Triple G view P p R) (hP : P (view past s))
    (he : W.Exec p.run past s (.done (.ok a)) past' s') : R a (view past' s') := by
  have hguarantees : W.Guarantees G p.run _ past s := h past s hP
  exact hguarantees.exec_done he

end World

end Interaction
