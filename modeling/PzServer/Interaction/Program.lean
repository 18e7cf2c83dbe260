import Mathlib.Data.Nat.Notation

/-!
# Programs that ask their surroundings

A program of the verified system never touches the outside world itself: it *asks*, and waits for
a reply. `Program Q A α` is the tree of all its conversations, one branch for every reply a
request can receive, ending in a value of type `α`. Exceptions are not built in; a program that
can raise is an `ExceptT` over this monad.

What a request does is said by a `World`. Nature first makes a choice, the choice together with
the present state gives the reply and the next state, and the state may rule some choices out.
Nothing else is nondeterministic, so a world can be evaluated once its choices are fixed.

## Kills

`Exec` runs a program for any number of requests and may stop anywhere. A process that is killed
between two requests is therefore not a special case: it is an execution whose last program is not
`done`. Everything a program does after a request is thought of as happening before the next one.

## Main definitions

* `Program`, `Program.bind`, `request` — conversations and their sequencing
* `Move` — one request with its reply and the states around it
* `World`, `World.move` — what requests do
* `World.Exec` — running a program for some number of requests
* `World.runFor`, `World.legal` — the same, computed from an oracle
-/

namespace Interaction

/-- A conversation: a finished program with its value, or a request and what follows each reply. -/
inductive Program (Q : Type) (A : Q → Type) (α : Type) : Type where
  | done (value : α)
  | ask (request : Q) (next : A request → Program Q A α)

variable {Q : Type} {A : Q → Type} {α β ε σ : Type}

namespace Program

/-- Continue a conversation where it ends. -/
def bind : Program Q A α → (α → Program Q A β) → Program Q A β
  | done a, f => f a
  | ask q k, f => ask q fun r => (k r).bind f

instance : Monad (Program Q A) where
  pure := done
  bind := bind

@[simp] theorem pure_eq (a : α) : (pure a : Program Q A α) = done a := rfl

@[simp] theorem done_bind (a : α) (f : α → Program Q A β) : (done a >>= f) = f a := rfl

@[simp] theorem ask_bind (q : Q) (k : A q → Program Q A α) (f : α → Program Q A β) :
    (ask q k >>= f) = ask q fun r => k r >>= f := rfl

instance : LawfulMonad (Program Q A) := by
  have hpure : ∀ {α : Type} (p : Program Q A α), p.bind done = p := by
    intro α p
    induction p with
    | done => rfl
    | ask q k ih => exact congrArg (ask q) (funext ih)
  have hassoc : ∀ {α β γ : Type} (p : Program Q A α) (f : α → Program Q A β)
      (g : β → Program Q A γ), (p.bind f).bind g = p.bind fun a => (f a).bind g := by
    intro α β γ p f g
    induction p with
    | done => rfl
    | ask q k ih => exact congrArg (ask q) (funext ih)
  exact LawfulMonad.mk' _ hpure (fun _ _ => rfl) hassoc

end Program

/-- Ask once and return the reply. -/
def request (q : Q) : Program Q A (A q) := .ask q .done

/-- One request, its reply, and the state before and after it. -/
structure Move (Q : Type) (A : Q → Type) (σ : Type) where
  request : Q
  reply : A request
  before : σ
  after : σ

/-- What requests do to the state: `answer` computes reply and next state from nature's choice,
and `allowed` says which choices nature has. -/
structure World (Q : Type) (A : Q → Type) (σ : Type) where
  Choice : Q → Type
  allowed : σ → (q : Q) → Choice q → Bool
  answer : σ → (q : Q) → Choice q → A q × σ

namespace World

variable (W : World Q A σ)

/-- The move that request `q` makes in state `s` when nature chooses `c`. -/
def move (s : σ) (q : Q) (c : W.Choice q) : Move Q A σ :=
  ⟨q, (W.answer s q c).1, s, (W.answer s q c).2⟩

@[simp] theorem move_request (s : σ) (q : Q) (c : W.Choice q) : (W.move s q c).request = q := rfl

@[simp] theorem move_before (s : σ) (q : Q) (c : W.Choice q) : (W.move s q c).before = s := rfl

@[simp] theorem move_reply (s : σ) (q : Q) (c : W.Choice q) :
    (W.move s q c).reply = (W.answer s q c).1 := rfl

@[simp] theorem move_after (s : σ) (q : Q) (c : W.Choice q) :
    (W.move s q c).after = (W.answer s q c).2 := rfl

/-! ### Executions -/

/-- `Exec p past s p' past' s'`: program `p`, started in state `s` after the moves `past`, can
get to `p'` in state `s'`. The moves are listed newest first. -/
inductive Exec : Program Q A α → List (Move Q A σ) → σ →
    Program Q A α → List (Move Q A σ) → σ → Prop where
  | refl (p : Program Q A α) (past : List (Move Q A σ)) (s : σ) : Exec p past s p past s
  | ask {q : Q} {k : A q → Program Q A α} {past past' : List (Move Q A σ)} {s s' : σ}
      {p' : Program Q A α} (c : W.Choice q) (h : W.allowed s q c = true)
      (hrest : Exec (k (W.answer s q c).1) (W.move s q c :: past) (W.answer s q c).2 p' past' s') :
      Exec (.ask q k) past s p' past' s'

variable {W}

/-- Executions only add moves. -/
theorem Exec.suffix {p p' : Program Q A α} {past past' : List (Move Q A σ)} {s s' : σ}
    (h : W.Exec p past s p' past' s') : past <:+ past' := by
  induction h with
  | refl => exact List.suffix_refl _
  | ask c hc _ ih => exact (List.suffix_cons _ _).trans ih

/-- An execution that adds no move stays where it is. -/
theorem Exec.eq_of_past {p p' : Program Q A α} {past : List (Move Q A σ)} {s s' : σ}
    (h : W.Exec p past s p' past s') : s' = s := by
  cases h with
  | refl => rfl
  | ask c hc hrest =>
    exact absurd hrest.suffix.length_le (Nat.not_succ_le_self _)

/-- What every request keeps holds at the end of an execution. -/
theorem Exec.invariant {P : σ → Prop}
    (hstep : ∀ s q c, W.allowed s q c = true → P s → P (W.answer s q c).2)
    {p p' : Program Q A α} {past past' : List (Move Q A σ)} {s s' : σ}
    (h : W.Exec p past s p' past' s') (hs : P s) : P s' := by
  induction h with
  | refl => exact hs
  | ask c hc _ ih => exact ih (hstep _ _ c hc hs)

variable (W)

/-- The same world with fewer choices. -/
def restrict (f : (s : σ) → (q : Q) → W.Choice q → Bool) : World Q A σ where
  Choice := W.Choice
  allowed s q c := W.allowed s q c && f s q c
  answer := W.answer

variable {W} in
/-- An execution whose moves are all among the fewer choices. -/
theorem Exec.restrict {f : (s : σ) → (q : Q) → W.Choice q → Bool} {p p' : Program Q A α}
    {past past' : List (Move Q A σ)} {s s' : σ} (h : W.Exec p past s p' past' s')
    (hf : ∀ s q c, W.move s q c ∈ past' → f s q c = true) :
    (W.restrict f).Exec p past s p' past' s' := by
  induction h with
  | refl => exact .refl _ _ _
  | @ask q k past past' s s' p' c hc hrest ih =>
    have hmem : W.move s q c ∈ past' := hrest.suffix.subset List.mem_cons_self
    exact .ask c ((Bool.and_eq_true _ _).mpr ⟨hc, hf s q c hmem⟩) (ih hf)

/-! ### Running against an oracle

`Exec` is a relation, so exhibiting a run means naming every choice. The two functions below name
them through an oracle, and `exec_runFor` turns the computed run into an execution. -/

/-- Nature's choices, as a function of the moves made so far, the state, and the request. -/
def Oracle : Type := List (Move Q A σ) → σ → (q : Q) → W.Choice q

/-- Run for at most `n` requests. -/
def runFor (o : W.Oracle) : ℕ → Program Q A α → List (Move Q A σ) → σ →
    Program Q A α × List (Move Q A σ) × σ
  | _, .done a, past, s => (.done a, past, s)
  | 0, p, past, s => (p, past, s)
  | n + 1, .ask q k, past, s =>
    let c := o past s q
    runFor o n (k (W.answer s q c).1) (W.move s q c :: past) (W.answer s q c).2

/-- Whether the oracle keeps to the allowed choices for `n` requests. -/
def legal (o : W.Oracle) : ℕ → Program Q A α → List (Move Q A σ) → σ → Bool
  | _, .done _, _, _ => true
  | 0, _, _, _ => true
  | n + 1, .ask q k, past, s =>
    let c := o past s q
    W.allowed s q c &&
      legal o n (k (W.answer s q c).1) (W.move s q c :: past) (W.answer s q c).2

theorem exec_runFor (o : W.Oracle) : ∀ (n : ℕ) (p : Program Q A α) (past : List (Move Q A σ))
    (s : σ), W.legal o n p past s = true →
      W.Exec p past s (W.runFor o n p past s).1 (W.runFor o n p past s).2.1
        (W.runFor o n p past s).2.2
  | 0, .done _, _, _, _ => .refl _ _ _
  | _ + 1, .done _, _, _, _ => .refl _ _ _
  | 0, .ask _ _, _, _, _ => .refl _ _ _
  | n + 1, .ask q k, past, s, h => by
    simp only [legal, Bool.and_eq_true] at h
    exact .ask (o past s q) h.1 (exec_runFor o n _ _ _ h.2)

/-- A program that can always be answered has a complete execution: it is a well-founded tree, so
it cannot ask for ever. -/
theorem exists_exec_done {P : σ → Prop}
    (h : ∀ s q, P s → ∃ c, W.allowed s q c = true ∧ P (W.answer s q c).2) (p : Program Q A α) :
    ∀ (past : List (Move Q A σ)) (s : σ), P s →
      ∃ a past' s', W.Exec p past s (.done a) past' s' := by
  induction p with
  | done a => exact fun past s _ => ⟨a, past, s, .refl _ _ _⟩
  | ask q k ih =>
    intro past s hs
    obtain ⟨c, hc, hP⟩ := h s q hs
    obtain ⟨a, past', s', hrest⟩ :=
      ih (W.answer s q c).1 (W.move s q c :: past) (W.answer s q c).2 hP
    exact ⟨a, past', s', .ask c hc hrest⟩

end World

end Interaction
