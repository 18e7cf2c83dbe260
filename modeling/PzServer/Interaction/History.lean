import PzServer.Interaction.Ensures

/-!
# Histories of operations that do not overlap

A system offers operations, each a program over the same durable state. Operations run one after
another, each from the state its predecessor left, and any of them may be killed between two of
its requests. `History` collects what they did, newest first, as one list of `Entry`s: a move,
with the operation that made it, the state that operation started from and the moves it had made
before.

The point of the list is that killed and finished operations look alike in it. `History.trail`
turns a history into a `Trail`, where every entry satisfies the guarantee of its operation and
starts in the state the entry before it left; properties of all runs are then inductions on the
trail, and no operation is opened again.

## Main results

* `History.trail` — every history is a trail of guaranteed moves, and the invariant holds at its end
* `Trail.invariant`, `Trail.along` — induction over a trail, and over a later part of it
-/

namespace Interaction

variable {Q : Type} {A : Q → Type} {σ Op : Type} {R : Op → Type}

/-- One move of one operation: the operation, the state it started in, the moves it had already
made (newest first), and the move. -/
structure Entry (Op : Type) (Q : Type) (A : Q → Type) (σ : Type) where
  op : Op
  start : σ
  earlier : List (Move Q A σ)
  move : Move Q A σ

namespace Entry

/-- The state before the entry's move. -/
abbrev before (e : Entry Op Q A σ) : σ := e.move.before

/-- The state after the entry's move. -/
abbrev after (e : Entry Op Q A σ) : σ := e.move.after

end Entry

/-- The entries of one operation, from its list of moves. -/
def entries (op : Op) (start : σ) : List (Move Q A σ) → List (Entry Op Q A σ)
  | [] => []
  | m :: past => ⟨op, start, past, m⟩ :: entries op start past

@[simp] theorem entries_nil (op : Op) (start : σ) :
    entries op start ([] : List (Move Q A σ)) = [] := rfl

@[simp] theorem entries_cons (op : Op) (start : σ) (m : Move Q A σ) (past : List (Move Q A σ)) :
    entries op start (m :: past) = ⟨op, start, past, m⟩ :: entries op start past := rfl

theorem op_of_mem_entries {op : Op} {start : σ} {past : List (Move Q A σ)} {e : Entry Op Q A σ}
    (h : e ∈ entries op start past) : e.op = op := by
  induction past with
  | nil => simp at h
  | cons m past ih =>
    rcases List.mem_cons.mp h with rfl | h
    · rfl
    · exact ih h

/-- The moves of an operation are those of its entries. -/
theorem map_move_entries (op : Op) (start : σ) (past : List (Move Q A σ)) :
    (entries op start past).map Entry.move = past := by
  induction past with
  | nil => rfl
  | cons m past ih => rw [entries_cons, List.map_cons, ih]

/-- An operation's earlier moves are among its moves. -/
theorem earlier_subset {op : Op} {start : σ} {past : List (Move Q A σ)} {e : Entry Op Q A σ}
    (h : e ∈ entries op start past) : e.earlier ⊆ past := by
  induction past with
  | nil => simp at h
  | cons m past ih =>
    rcases List.mem_cons.mp h with rfl | h
    · exact List.subset_cons_self m past
    · exact List.Subset.trans (ih h) (List.subset_cons_self m past)

theorem move_mem_of_mem_entries {op : Op} {start : σ} {past : List (Move Q A σ)}
    {e : Entry Op Q A σ} (h : e ∈ entries op start past) : e.move ∈ past := by
  rw [← map_move_entries op start past]
  exact List.mem_map_of_mem h

theorem exists_mem_entries {op : Op} {start : σ} {past : List (Move Q A σ)} {m : Move Q A σ}
    (h : m ∈ past) : ∃ e ∈ entries op start past, e.move = m := by
  rw [← map_move_entries op start past] at h
  exact List.mem_map.mp h

/-- The newest entry, when there is one. -/
theorem entries_eq_cons (op : Op) (start : σ) {past : List (Move Q A σ)} (h : past ≠ []) :
    entries op start past = ⟨op, start, past.tail, past.head h⟩ :: entries op start past.tail := by
  cases past with
  | nil => exact absurd rfl h
  | cons m past => rfl

/-- What operations can have done, and the state they left: each runs its body from the state of
its predecessor, completely or until it is killed. -/
inductive History (W : World Q A σ) (body : (o : Op) → Program Q A (R o)) (init : σ → Prop) :
    List (Entry Op Q A σ) → σ → Prop where
  | start {s : σ} (h : init s) : History W body init [] s
  | run (o : Op) {h : List (Entry Op Q A σ)} {s s' : σ} {p : Program Q A (R o)}
      {past : List (Move Q A σ)} (hh : History W body init h s)
      (he : W.Exec (body o) [] s p past s') :
      History W body init (entries o s past ++ h) s'

/-- A run of entries of one operation, split at one of them. -/
theorem entries_split {op : Op} {start : σ} {past : List (Move Q A σ)}
    {later earlier : List (Entry Op Q A σ)} {e : Entry Op Q A σ}
    (h : entries op start past = later ++ e :: earlier) :
    e.op = op ∧ e.start = start ∧ past = later.map Entry.move ++ e.move :: e.earlier := by
  induction past generalizing later with
  | nil => simp at h
  | cons m past ih =>
    cases later with
    | nil =>
      simp only [entries_cons, List.nil_append, List.cons.injEq] at h
      obtain ⟨rfl, -⟩ := h
      exact ⟨rfl, rfl, rfl⟩
    | cons e' later =>
      simp only [entries_cons, List.cons_append, List.cons.injEq] at h
      obtain ⟨rfl, h⟩ := h
      obtain ⟨hop, hstart, hpast⟩ := ih h
      exact ⟨hop, hstart, by rw [hpast]; rfl⟩

/-- **A history split at an entry**: the history before its operation, what the operation did in
all, and a history from where it stopped. -/
theorem History.split {W : World Q A σ} {body : (o : Op) → Program Q A (R o)} {init : σ → Prop}
    {later earlier : List (Entry Op Q A σ)} {e : Entry Op Q A σ} {s : σ}
    (hh : History W body init (later ++ e :: earlier) s) :
    ∃ h p mid after within, History W body init h e.start ∧
      W.Exec (body e.op) [] e.start p (within.map Entry.move ++ e.move :: e.earlier) mid ∧
      History W body (· = mid) after s ∧ later = after ++ within := by
  generalize hall : later ++ e :: earlier = all at hh
  induction hh generalizing later earlier with
  | start => simp at hall
  | @run o h s s' p past hh he ih =>
    rcases List.append_eq_append_iff.mp hall with ⟨rest, hpast, hrest⟩ | ⟨rest, rfl, hh'⟩
    · cases rest with
      | nil =>
        -- the entry is the newest of the history before this operation
        rw [List.append_nil] at hpast
        obtain ⟨h₀, p₀, mid, after, within, h₁, h₂, h₃, h₄⟩ :=
          ih (show [] ++ e :: earlier = h from hrest)
        obtain ⟨rfl, rfl⟩ : after = [] ∧ within = [] := by simpa using h₄.symm
        exact ⟨h₀, p₀, mid, _, [], h₁, h₂, h₃.run o he, by simp [hpast]⟩
      | cons e' rest =>
        simp only [List.cons_append, List.cons.injEq] at hrest
        obtain ⟨rfl, -⟩ := hrest
        obtain ⟨rfl, rfl, rfl⟩ := entries_split hpast
        exact ⟨h, p, s', [], later, hh, he, .start rfl, rfl⟩
    · obtain ⟨h₀, p₀, mid, after, within, h₁, h₂, h₃, h₄⟩ := ih hh'.symm
      exact ⟨h₀, p₀, mid, entries o s past ++ after, within, h₁, h₂, h₃.run o he, by simp [h₄]⟩

/-- A list of entries in which each satisfies `G` and starts where its predecessor ended. -/
inductive Trail (G : Op → σ → List (Move Q A σ) → Move Q A σ → Prop) (init : σ → Prop) :
    List (Entry Op Q A σ) → σ → Prop where
  | start {s : σ} (h : init s) : Trail G init [] s
  | move {e : Entry Op Q A σ} {h : List (Entry Op Q A σ)} (ht : Trail G init h e.before)
      (hG : G e.op e.start e.earlier e.move) : Trail G init (e :: h) e.after

variable {W : World Q A σ} {body : (o : Op) → Program Q A (R o)} {init : σ → Prop}
  {G : Op → σ → List (Move Q A σ) → Move Q A σ → Prop} {Inv : σ → Prop}

/-- What every request keeps holds of every history. -/
theorem History.invariant (hinit : ∀ s, init s → Inv s)
    (hstep : ∀ s q c, W.allowed s q c = true → Inv s → Inv (W.answer s q c).2)
    {h : List (Entry Op Q A σ)} {s : σ} (hh : History W body init h s) : Inv s := by
  induction hh with
  | start h => exact hinit _ h
  | run o _ he ih => exact he.invariant hstep ih

/-- A history whose moves are all among fewer choices. -/
theorem History.restrict {f : (s : σ) → (q : Q) → W.Choice q → Bool}
    {h : List (Entry Op Q A σ)} {s : σ} (hh : History W body init h s)
    (hf : ∀ e ∈ h, ∀ s q c, e.move = W.move s q c → f s q c = true) :
    History (W.restrict f) body init h s := by
  induction hh with
  | start h => exact .start h
  | @run o h s s' p past hh he ih =>
    have hpast : (W.restrict f).Exec (body o) [] s p past s' := by
      refine he.restrict fun s₁ q c hmove => ?_
      obtain ⟨e, hmem, heq⟩ := exists_mem_entries hmove
      exact hf e (List.mem_append_left _ hmem) s₁ q c heq
    exact (ih fun e hmem => hf e (List.mem_append_right _ hmem)).run o hpast

/-- What an operation had done before one of its moves is in the history too. -/
theorem History.exists_entry {h : List (Entry Op Q A σ)} {s : σ} (hh : History W body init h s)
    {e : Entry Op Q A σ} (he : e ∈ h) {m : Move Q A σ} (hm : m ∈ e.earlier) :
    ∃ e' ∈ h, e'.move = m := by
  induction hh with
  | start => simp at he
  | @run o _ s _ _ past _ _ ih =>
    rcases List.mem_append.mp he with he | he
    · have hpast : m ∈ (entries o s past).map Entry.move :=
        (map_move_entries o s past).symm ▸ earlier_subset he hm
      obtain ⟨e', he', hm'⟩ := List.mem_map.mp hpast
      exact ⟨e', List.mem_append_left _ he', hm'⟩
    · obtain ⟨e', he', hm'⟩ := ih he
      exact ⟨e', List.mem_append_right _ he', hm'⟩

theorem Trail.invariant (hinit : ∀ s, init s → Inv s)
    (hstep : ∀ o start past m, G o start past m → Inv m.before → Inv m.after)
    {h : List (Entry Op Q A σ)} {s : σ} (ht : Trail G init h s) : Inv s := by
  induction ht with
  | start h => exact hinit _ h
  | move _ hG ih => exact hstep _ _ _ _ hG ih

/-- The earlier part of a trail is a trail. -/
theorem Trail.of_append {later h : List (Entry Op Q A σ)} {s : σ}
    (ht : Trail G init (later ++ h) s) : ∃ s', Trail G init h s' := by
  induction later generalizing s with
  | nil => exact ⟨s, ht⟩
  | cons e later ih =>
    cases ht with
    | move ht _ => exact ih ht

/-- An entry of a trail starts where the part before it ends, and satisfies the guarantee. -/
theorem Trail.of_append_cons {later h : List (Entry Op Q A σ)} {e : Entry Op Q A σ} {s : σ}
    (ht : Trail G init (later ++ e :: h) s) :
    Trail G init h e.before ∧ G e.op e.start e.earlier e.move := by
  obtain ⟨s', ht'⟩ := ht.of_append
  cases ht' with
  | move ht hG => exact ⟨ht, hG⟩

/-- Induction along the later part of a trail. -/
theorem Trail.along {P : σ → Prop} {later h : List (Entry Op Q A σ)} {s : σ}
    (ht : Trail G init (later ++ h) s) (hbase : ∀ s', Trail G init h s' → P s')
    (hstep : ∀ e h', e ∈ later → Trail G init h' e.before → G e.op e.start e.earlier e.move →
      P e.before → P e.after) : P s := by
  induction later generalizing s with
  | nil => exact hbase s ht
  | cons e later ih =>
    cases ht with
    | move ht hG =>
      refine hstep e _ List.mem_cons_self ht hG (ih ht fun e' h' he' => ?_)
      exact hstep e' h' (List.mem_cons_of_mem e he')

/-- A trail that begins with an entry ends where the entry does. -/
theorem Trail.eq_after {e : Entry Op Q A σ} {h : List (Entry Op Q A σ)} {s : σ}
    (ht : Trail G init (e :: h) s) : s = e.after := by
  cases ht with
  | move => rfl

/-- Every entry of a trail satisfies the guarantee, in a state the trail reaches. -/
theorem Trail.of_mem {h : List (Entry Op Q A σ)} {s : σ} {e : Entry Op Q A σ}
    (ht : Trail G init h s) (he : e ∈ h) :
    ∃ earlier, Trail G init earlier e.before ∧ G e.op e.start e.earlier e.move := by
  obtain ⟨later, earlier, rfl⟩ := List.append_of_mem he
  exact ⟨earlier, ht.of_append_cons⟩

section Guarantee

/-- One execution extends a trail by its moves. -/
theorem Trail.exec {o : Op} {start : σ} {α : Type} {post : α → List (Move Q A σ) → σ → Prop}
    {p p' : Program Q A α} {past past' : List (Move Q A σ)} {s s' : σ}
    (he : W.Exec p past s p' past' s') (hg : W.Guarantees (G o start) p post past s)
    {h : List (Entry Op Q A σ)} (ht : Trail G init (entries o start past ++ h) s) :
    Trail G init (entries o start past' ++ h) s' := by
  induction he with
  | refl => exact ht
  | @ask q k past past' s s' p' c hc _ ih =>
    obtain ⟨hG, hk⟩ := hg c hc
    exact ih hk (Trail.move (e := ⟨o, start, past, W.move s q c⟩) ht hG)

/-- **Histories are trails.** If every operation guarantees `G` when it starts in a state that
satisfies the invariant, and `G` keeps the invariant, then every history is a trail. -/
theorem History.trail (hinit : ∀ s, init s → Inv s)
    (hstep : ∀ o start past m, G o start past m → Inv m.before → Inv m.after)
    (hbody : ∀ o s, Inv s → W.Guarantees (G o s) (body o) (fun _ _ _ => True) [] s)
    {h : List (Entry Op Q A σ)} {s : σ} (hh : History W body init h s) : Trail G init h s := by
  induction hh with
  | start h => exact .start h
  | run o _ he ih =>
    exact Trail.exec he (hbody o _ (ih.invariant hinit hstep)) (by simpa using ih)

end Guarantee

/-! ### Since

A past-time operator: `Since P R h` says that some entry satisfied `P`, and every entry after it
satisfied `R`. -/

/-- Some entry of the history satisfied `P` (with the history before it), and all later ones `R`. -/
def Since {E : Type} (P : E → List E → Prop) (R : E → Prop) (h : List E) : Prop :=
  ∃ later e earlier, h = later ++ e :: earlier ∧ P e earlier ∧ ∀ e' ∈ later, R e'

section Since

variable {E : Type} {P P' : E → List E → Prop} {R : E → Prop} {h : List E} {e : E}

theorem since_now (hP : P e h) : Since P R (e :: h) :=
  ⟨[], e, h, rfl, hP, by simp⟩

theorem Since.cons (hs : Since P R h) (hR : R e) : Since P R (e :: h) := by
  obtain ⟨later, e', earlier, rfl, hP, hall⟩ := hs
  refine ⟨e :: later, e', earlier, rfl, hP, ?_⟩
  intro x hx
  rcases List.mem_cons.mp hx with rfl | hx
  · exact hR
  · exact hall x hx

/-- What held since some entry before an entry that is itself harmless. -/
theorem Since.flatten (hs : Since P' R h) (hP : ∀ e h, P' e h → R e ∧ Since P R h) :
    Since P R h := by
  obtain ⟨later, e, earlier, rfl, hP', hall⟩ := hs
  obtain ⟨hR, later', e', earlier', rfl, hPe, hall'⟩ := hP e earlier hP'
  refine ⟨later ++ e :: later', e', earlier', by simp, hPe, fun x hx => ?_⟩
  rcases List.mem_append.mp hx with hx | hx
  · exact hall x hx
  · rcases List.mem_cons.mp hx with rfl | hx
    · exact hR
    · exact hall' x hx

end Since

end Interaction
