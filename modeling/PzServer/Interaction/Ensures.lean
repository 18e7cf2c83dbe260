import PzServer.Interaction.Program

/-!
# What a program guarantees while it runs

`W.Ensures G p ok err past s` says two things about every execution of `p` from state `s` after
the moves `past`. Every move it makes satisfies the guarantee `G`, which may look at the moves made
before it; and where the program ends, its value satisfies `ok`, or the exception it raised
satisfies `err`. Since a kill is an execution that stops early, `G` is what holds of a killed
process: there is no separate crash condition.

The rules below follow the syntax of programs. Each function of a verified system gets one lemma
of this form, and its callers use that lemma and never unfold the function.

## Main results

* `World.Ensures.bind`, `World.ensures_tryCatch`, `World.Ensures.mono` — the rules
* `World.ensures_ask` — one request
* `World.Guarantees.exec` — soundness: what a guarantee says about `Exec`
-/

namespace Interaction

variable {Q : Type} {A : Q → Type} {α β ε σ : Type}

/-- Run a clean-up after `p`, told whether `p` returned. What the clean-up raises takes the place
of what `p` returned or raised. -/
def withCleanup (p : ExceptT ε (Program Q A) α)
    (cleanup : Bool → ExceptT ε (Program Q A) Unit) : ExceptT ε (Program Q A) α :=
  ExceptT.mk do
    match ← p.run with
    | .ok a => ExceptT.run do
      cleanup true
      return a
    | .error e => ExceptT.run do
      cleanup false
      throw e

namespace World

variable (W : World Q A σ)

/-- Every move of every execution of `p` satisfies `G`, and where it ends `post` holds. -/
def Guarantees (G : List (Move Q A σ) → Move Q A σ → Prop) :
    Program Q A α → (α → List (Move Q A σ) → σ → Prop) → List (Move Q A σ) → σ → Prop
  | .done a, post, past, s => post a past s
  | .ask q k, post, past, s => ∀ c, W.allowed s q c = true →
      G past (W.move s q c) ∧
        Guarantees G (k (W.answer s q c).1) post (W.move s q c :: past) (W.answer s q c).2

variable {W} {G G' : List (Move Q A σ) → Move Q A σ → Prop}

theorem Guarantees.mono {post post' : α → List (Move Q A σ) → σ → Prop}
    (himp : ∀ a past s, post a past s → post' a past s) :
    ∀ {p : Program Q A α} {past : List (Move Q A σ)} {s : σ},
      W.Guarantees G p post past s → W.Guarantees G p post' past s := by
  intro p
  induction p with
  | done a => exact fun h => himp _ _ _ h
  | ask q k ih => exact fun h c hc => ⟨(h c hc).1, ih _ (h c hc).2⟩

/-- A weaker guarantee, which may use that the moves before it satisfied the stronger one. -/
theorem Guarantees.weaken {post : α → List (Move Q A σ) → σ → Prop}
    (himp : ∀ past m, G past m → G' past m) :
    ∀ {p : Program Q A α} {past : List (Move Q A σ)} {s : σ},
      W.Guarantees G p post past s → W.Guarantees G' p post past s := by
  intro p
  induction p with
  | done a => exact fun h => h
  | ask q k ih => exact fun h c hc => ⟨himp _ _ (h c hc).1, ih _ (h c hc).2⟩

/-- A postcondition may also use that a program only adds moves. -/
theorem Guarantees.suffix {post : α → List (Move Q A σ) → σ → Prop} :
    ∀ {p : Program Q A α} {past : List (Move Q A σ)} {s : σ}, W.Guarantees G p post past s →
      W.Guarantees G p (fun a past' s' => past <:+ past' ∧ post a past' s') past s := by
  intro p
  induction p with
  | done a => exact fun h => ⟨List.suffix_refl _, h⟩
  | ask q k ih =>
    refine fun h c hc => ⟨(h c hc).1, (ih _ (h c hc).2).mono ?_⟩
    exact fun a past' s' hpost => ⟨(List.suffix_cons _ _).trans hpost.1, hpost.2⟩

/-- What holds in every execution holds in those of a world with fewer choices. -/
theorem Guarantees.restrict {post : α → List (Move Q A σ) → σ → Prop}
    (f : (s : σ) → (q : Q) → W.Choice q → Bool) :
    ∀ {p : Program Q A α} {past : List (Move Q A σ)} {s : σ}, W.Guarantees G p post past s →
      (W.restrict f).Guarantees G p post past s := by
  intro p
  induction p with
  | done a => exact fun h => h
  | ask q k ih =>
    intro past s h c hc
    have hallowed : W.allowed s q c = true := (Bool.and_eq_true _ _ ▸ hc : _ ∧ _).1
    exact ⟨(h c hallowed).1, ih _ (h c hallowed).2⟩

theorem guarantees_trivial : ∀ {p : Program Q A α} {past : List (Move Q A σ)} {s : σ},
    W.Guarantees (fun _ _ => True) p (fun _ _ _ => True) past s := by
  intro p
  induction p with
  | done a => exact trivial
  | ask q k ih => exact fun c _ => ⟨trivial, ih _⟩

theorem Guarantees.and {post post' : α → List (Move Q A σ) → σ → Prop} :
    ∀ {p : Program Q A α} {past : List (Move Q A σ)} {s : σ}, W.Guarantees G p post past s →
      W.Guarantees G' p post' past s →
      W.Guarantees G' p (fun a past s => post a past s ∧ post' a past s) past s := by
  intro p
  induction p with
  | done a => exact fun h h' => ⟨h, h'⟩
  | ask q k ih => exact fun h h' c hc => ⟨(h' c hc).1, ih _ (h c hc).2 (h' c hc).2⟩

/-- What every move keeps holds before and after each of them. -/
theorem Guarantees.keeps {N : Move Q A σ → Prop} {P : σ → Prop}
    (hstep : ∀ s q c, W.allowed s q c = true → N (W.move s q c) → P s → P (W.answer s q c).2)
    {past₀ : List (Move Q A σ)} {post : α → List (Move Q A σ) → σ → Prop} :
    ∀ {p : Program Q A α} {past : List (Move Q A σ)} {s : σ},
      W.Guarantees (fun _ m => N m) p post past s → past₀ <:+ past → P s →
      W.Guarantees (fun past m => past₀ <:+ past ∧ P m.before ∧ P m.after) p
        (fun _ _ s => P s) past s := by
  intro p
  induction p with
  | done a => exact fun _ _ hs => hs
  | ask q k ih =>
    intro past s h hsuf hs c hc
    have hs' : P (W.answer s q c).2 := hstep s q c hc (h c hc).1 hs
    exact ⟨⟨hsuf, hs, hs'⟩, ih _ (h c hc).2 (hsuf.trans (List.suffix_cons _ _)) hs'⟩

/-- What every move keeps, about the state and about the moves made so far. -/
theorem Guarantees.preserves {N : Move Q A σ → Prop} {K : List (Move Q A σ) → σ → Prop}
    (hstep : ∀ past s q c, W.allowed s q c = true → N (W.move s q c) → K past s →
      G past (W.move s q c) ∧ K (W.move s q c :: past) (W.answer s q c).2)
    {post : α → List (Move Q A σ) → σ → Prop} :
    ∀ {p : Program Q A α} {past : List (Move Q A σ)} {s : σ},
      W.Guarantees (fun _ m => N m) p post past s → K past s →
      W.Guarantees G p (fun _ past s => K past s) past s := by
  intro p
  induction p with
  | done a => exact fun _ hs => hs
  | ask q k ih =>
    intro past s h hs c hc
    obtain ⟨hmove, hrest⟩ := h c hc
    obtain ⟨hG, hs'⟩ := hstep past s q c hc hmove hs
    exact ⟨hG, ih _ hrest hs'⟩

theorem guarantees_bind {f : α → Program Q A β} {post : β → List (Move Q A σ) → σ → Prop} :
    ∀ {p : Program Q A α} {past : List (Move Q A σ)} {s : σ},
      W.Guarantees G (p >>= f) post past s ↔
        W.Guarantees G p (fun a past s => W.Guarantees G (f a) post past s) past s := by
  intro p
  induction p with
  | done a => exact Iff.rfl
  | ask q k ih =>
    intro past s
    constructor
    · exact fun h c hc => ⟨(h c hc).1, ih _ |>.mp (h c hc).2⟩
    · exact fun h c hc => ⟨(h c hc).1, ih _ |>.mpr (h c hc).2⟩

/-- **Soundness.** An execution of a program that guarantees `G` makes only moves that satisfy
`G`, and what is left of the program still guarantees it. -/
theorem Guarantees.exec {p p' : Program Q A α} {past past' : List (Move Q A σ)} {s s' : σ}
    {post : α → List (Move Q A σ) → σ → Prop} (h : W.Guarantees G p post past s)
    (he : W.Exec p past s p' past' s') :
    W.Guarantees G p' post past' s' ∧
      ∀ later m earlier, past' = later ++ m :: earlier → past <:+ earlier → G earlier m := by
  induction he with
  | refl p past s =>
    refine ⟨h, fun later m earlier hsplit hsuf => ?_⟩
    have hlen := congrArg List.length hsplit
    have := hsuf.length_le
    simp only [List.length_append, List.length_cons] at hlen
    omega
  | @ask q k past past' s s' p' c hc hrest ih =>
    obtain ⟨hG, hk⟩ := h c hc
    obtain ⟨hpost, hmoves⟩ := ih hk
    refine ⟨hpost, fun later m earlier hsplit hsuf => ?_⟩
    -- either `m` is the move just made, or it was made after it
    have hnew : W.move s q c :: past <:+ past' := hrest.suffix
    rcases List.suffix_or_suffix_of_suffix hnew ⟨later, hsplit.symm⟩ with hle | hle
    · rcases List.suffix_cons_iff.mp hle with heq | hlt
      · simp only [List.cons.injEq] at heq
        obtain ⟨rfl, rfl⟩ := heq
        exact hG
      · exact hmoves later m earlier hsplit hlt
    · rcases List.suffix_cons_iff.mp hle with heq | hlt
      · simp only [List.cons.injEq] at heq
        obtain ⟨rfl, rfl⟩ := heq
        exact hG
      · have h₁ := hlt.length_le
        have h₂ := hsuf.length_le
        simp only [List.length_cons] at h₁
        omega

/-- What every move establishes holds wherever an execution stops. -/
theorem Guarantees.exec_after {K : List (Move Q A σ) → σ → Prop}
    (hG : ∀ past m, G past m → K (m :: past) m.after) {p p' : Program Q A α}
    {past past' : List (Move Q A σ)} {s s' : σ} {post : α → List (Move Q A σ) → σ → Prop}
    (h : W.Guarantees G p post past s) (he : W.Exec p past s p' past' s') (hs : K past s) :
    K past' s' := by
  induction he with
  | refl => exact hs
  | ask c hc _ ih =>
    obtain ⟨hmove, hrest⟩ := h c hc
    exact ih hrest (hG _ _ hmove)

/-- A complete execution ends in a value that satisfies the postcondition. -/
theorem Guarantees.exec_done {p : Program Q A α} {a : α} {past past' : List (Move Q A σ)}
    {s s' : σ} {post : α → List (Move Q A σ) → σ → Prop} (h : W.Guarantees G p post past s)
    (he : W.Exec p past s (.done a) past' s') : post a past' s' :=
  (h.exec he).1

/-! ### Programs that raise -/

variable (W)

/-- `Guarantees` for a program with exceptions, its two ways to end kept apart. -/
def Ensures (G : List (Move Q A σ) → Move Q A σ → Prop) (p : ExceptT ε (Program Q A) α)
    (ok : α → List (Move Q A σ) → σ → Prop) (err : ε → List (Move Q A σ) → σ → Prop)
    (past : List (Move Q A σ)) (s : σ) : Prop :=
  W.Guarantees G p.run (fun r past s => match r with
    | .ok a => ok a past s
    | .error e => err e past s) past s

variable {W} {ok ok' : α → List (Move Q A σ) → σ → Prop}
  {err err' : ε → List (Move Q A σ) → σ → Prop} {past : List (Move Q A σ)} {s : σ}

theorem Ensures.mono {p : ExceptT ε (Program Q A) α} (h : W.Ensures G p ok err past s)
    (hok : ∀ a past s, ok a past s → ok' a past s)
    (herr : ∀ e past s, err e past s → err' e past s) : W.Ensures G p ok' err' past s :=
  Guarantees.mono (fun r past s => match r with
    | .ok a => hok a past s
    | .error e => herr e past s) h

theorem Ensures.weaken {p : ExceptT ε (Program Q A) α} (h : W.Ensures G p ok err past s)
    (hG : ∀ past m, G past m → G' past m) : W.Ensures G' p ok err past s :=
  Guarantees.weaken hG h

theorem ensures_pure {a : α} (h : ok a past s) :
    W.Ensures G (pure a : ExceptT ε (Program Q A) α) ok err past s := h

theorem ensures_throw {e : ε} (h : err e past s) :
    W.Ensures G (throw e : ExceptT ε (Program Q A) α) ok err past s := h

theorem Ensures.bind {p : ExceptT ε (Program Q A) α} {f : α → ExceptT ε (Program Q A) β}
    {ok : β → List (Move Q A σ) → σ → Prop}
    (h : W.Ensures G p (fun a past s => W.Ensures G (f a) ok err past s) err past s) :
    W.Ensures G (p >>= f) ok err past s := by
  refine guarantees_bind.mpr (Guarantees.mono ?_ h)
  intro r past s hr
  cases r with
  | ok a => exact hr
  | error e => exact hr

theorem ensures_tryCatch {p : ExceptT ε (Program Q A) α} {f : ε → ExceptT ε (Program Q A) α}
    (h : W.Ensures G p ok (fun e past s => W.Ensures G (f e) ok err past s) past s) :
    W.Ensures G (tryCatch p f) ok err past s := by
  refine guarantees_bind.mpr (Guarantees.mono ?_ h)
  intro r past s hr
  cases r with
  | ok a => exact hr
  | error e => exact hr

theorem Ensures.suffix {p : ExceptT ε (Program Q A) α} (h : W.Ensures G p ok err past s) :
    W.Ensures G p (fun a past' s' => past <:+ past' ∧ ok a past' s')
      (fun e past' s' => past <:+ past' ∧ err e past' s') past s :=
  (Guarantees.suffix h).mono fun r _ _ hr => match r with
    | .ok _ => hr
    | .error _ => hr

theorem Ensures.restrict {p : ExceptT ε (Program Q A) α} (h : W.Ensures G p ok err past s)
    (f : (s : σ) → (q : Q) → W.Choice q → Bool) : (W.restrict f).Ensures G p ok err past s :=
  (Guarantees.restrict f h).mono fun r _ _ hr => match r with
    | .ok _ => hr
    | .error _ => hr

/-- Two specifications of one program; the second keeps its guarantee. -/
theorem Ensures.and {p : ExceptT ε (Program Q A) α} (h : W.Ensures G p ok err past s)
    (h' : W.Ensures G' p ok' err' past s) :
    W.Ensures G' p (fun a past s => ok a past s ∧ ok' a past s)
      (fun e past s => err e past s ∧ err' e past s) past s :=
  (Guarantees.and h h').mono fun r _ _ hr => match r with
    | .ok _ => hr
    | .error _ => hr

/-- Sequencing through the specification of the first part. -/
theorem Ensures.seq {p : ExceptT ε (Program Q A) α} {f : α → ExceptT ε (Program Q A) β}
    {okp : α → List (Move Q A σ) → σ → Prop} {errp : ε → List (Move Q A σ) → σ → Prop}
    {ok : β → List (Move Q A σ) → σ → Prop}
    (h : W.Ensures G p okp errp past s)
    (hok : ∀ a past' s', past <:+ past' → okp a past' s' → W.Ensures G (f a) ok err past' s')
    (herr : ∀ e past' s', past <:+ past' → errp e past' s' → err e past' s') :
    W.Ensures G (p >>= f) ok err past s :=
  .bind (h.suffix.mono (fun a past' s' ha => hok a past' s' ha.1 ha.2)
    fun e past' s' he => herr e past' s' he.1 he.2)

/-- Handling through the specification of the protected part. -/
theorem Ensures.handle {p : ExceptT ε (Program Q A) α} {f : ε → ExceptT ε (Program Q A) α}
    {okp : α → List (Move Q A σ) → σ → Prop} {errp : ε → List (Move Q A σ) → σ → Prop}
    (h : W.Ensures G p okp errp past s)
    (hok : ∀ a past' s', past <:+ past' → okp a past' s' → ok a past' s')
    (herr : ∀ e past' s', past <:+ past' → errp e past' s' → W.Ensures G (f e) ok err past' s') :
    W.Ensures G (tryCatch p f) ok err past s :=
  ensures_tryCatch (h.suffix.mono (fun a past' s' ha => hok a past' s' ha.1 ha.2)
    fun e past' s' he => herr e past' s' he.1 he.2)

/-- Cleaning up through the specification of the protected part. -/
theorem Ensures.withCleanup {p : ExceptT ε (Program Q A) α}
    {cleanup : Bool → ExceptT ε (Program Q A) Unit}
    {okp : α → List (Move Q A σ) → σ → Prop} {errp : ε → List (Move Q A σ) → σ → Prop}
    (h : W.Ensures G p okp errp past s)
    (hok : ∀ a past' s', past <:+ past' → okp a past' s' →
      W.Ensures G (cleanup true) (fun _ => ok a) err past' s')
    (herr : ∀ e past' s', past <:+ past' → errp e past' s' →
      W.Ensures G (cleanup false) (fun _ => err e) err past' s') :
    W.Ensures G (Interaction.withCleanup p cleanup) ok err past s := by
  refine guarantees_bind.mpr (Guarantees.mono ?_ h.suffix)
  rintro (e | a) past' s' ⟨hsuf, hr⟩
  · exact Ensures.bind ((herr e past' s' hsuf hr).mono (fun _ _ _ he => he) fun _ _ _ he => he)
  · exact Ensures.bind ((hok a past' s' hsuf hr).mono (fun _ _ _ ha => ha) fun _ _ _ he => he)

/-- What a program has done before stays done, whatever it is. -/
theorem ensures_past {N : Move Q A σ → Prop} (h : ∃ m ∈ past, N m)
    (p : ExceptT ε (Program Q A) α) :
    W.Ensures (fun _ _ => True) p (fun _ past' _ => ∃ m ∈ past', N m)
      (fun _ past' _ => ∃ m ∈ past', N m) past s := by
  have htrivial : W.Guarantees (fun _ _ => True) p.run (fun _ _ _ => True) past s :=
    guarantees_trivial
  obtain ⟨m, hm, hN⟩ := h
  refine Guarantees.mono ?_ htrivial.suffix
  rintro (_ | _) past' _ ⟨hsuf, -⟩
  · exact ⟨m, hsuf.subset hm, hN⟩
  · exact ⟨m, hsuf.subset hm, hN⟩

/-- One request, in a program that can raise. -/
theorem ensures_request {q : Q} {ok : A q → List (Move Q A σ) → σ → Prop}
    (h : ∀ c, W.allowed s q c = true → G past (W.move s q c) ∧
      ok (W.answer s q c).1 (W.move s q c :: past) (W.answer s q c).2) :
    W.Ensures G (ExceptT.lift (request q)) ok err past s := h

end World

/-! ### Requests whose reply may be an exception -/

section Raising

variable {Q : Type} {V : Q → Type} {ε σ : Type}

/-- Ask a request that replies with a value or an exception, and raise the exception. -/
def askRaising (q : Q) : ExceptT ε (Program Q fun q => Except ε (V q)) (V q) :=
  ExceptT.mk (request q)

variable {W : World Q (fun q => Except ε (V q)) σ}
  {G : List (Move Q (fun q => Except ε (V q)) σ) → Move Q (fun q => Except ε (V q)) σ → Prop}
  {past : List (Move Q (fun q => Except ε (V q)) σ)} {s : σ}

theorem World.ensures_ask {q : Q}
    {ok : V q → List (Move Q (fun q => Except ε (V q)) σ) → σ → Prop}
    {err : ε → List (Move Q (fun q => Except ε (V q)) σ) → σ → Prop}
    (h : ∀ c, W.allowed s q c = true → G past (W.move s q c) ∧
      match (W.answer s q c).1 with
      | .ok v => ok v (W.move s q c :: past) (W.answer s q c).2
      | .error e => err e (W.move s q c :: past) (W.answer s q c).2) :
    W.Ensures G (askRaising q) ok err past s := by
  intro c hc
  refine ⟨(h c hc).1, ?_⟩
  have hpost := (h c hc).2
  cases hr : (W.answer s q c).1 with
  | ok v => rw [hr] at hpost; exact hpost
  | error e => rw [hr] at hpost; exact hpost

end Raising

end Interaction
