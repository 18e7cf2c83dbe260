import PzServer.Interaction.Ensures

/-!
# Answering the requests of a program

Three ways to give the requests of a program a meaning. `follow` answers them from a script, so that
the program becomes a function. `interpret` answers each by a computation in another monad, which
may be a program over other requests: a component written against an interface is connected to an
implementation of it. `embed` only renames them, for a program that runs in a larger system.

## Main results

* `Program.follow_bind` — following a script through a sequence
* `Program.interpret_bind`, `Program.interpret_request_bind` — interpreting a sequence
* `World.Guarantees.interpret` — what a program guarantees when handlers answer it
-/

namespace Interaction

variable {Q : Type} {A : Q → Type} {α β : Type}

/-- A request with the reply it received. -/
abbrev Asked (Q : Type) (A : Q → Type) : Type := (q : Q) × A q

namespace Program

/-! ### Scripts -/

/-- Run a program to its end; every reply is computed from what was asked before, newest first.
Returns the value and everything that was asked. -/
def follow (script : List (Asked Q A) → (q : Q) → A q) :
    Program Q A α → List (Asked Q A) → α × List (Asked Q A)
  | .done a, past => (a, past)
  | .ask q k, past => follow script (k (script past q)) (⟨q, script past q⟩ :: past)

variable {script : List (Asked Q A) → (q : Q) → A q} {past : List (Asked Q A)}

@[simp] theorem follow_done (a : α) : follow script (.done a) past = (a, past) := rfl

@[simp] theorem follow_request (q : Q) :
    follow script (request q) past = (script past q, ⟨q, script past q⟩ :: past) := rfl

theorem follow_bind (f : α → Program Q A β) : ∀ (p : Program Q A α) (past : List (Asked Q A)),
    follow script (p >>= f) past =
      follow script (f (follow script p past).1) (follow script p past).2
  | .done _, _ => rfl
  | .ask q k, past => by
    rw [ask_bind, follow, follow]
    exact follow_bind f (k (script past q)) _

/-! ### Interpretation -/

/-- Answer every request by a computation of another monad, which carries a state along. -/
def interpret {M : Type → Type} [Monad M] {S : Type} (handler : (q : Q) → S → M (A q × S)) :
    Program Q A α → S → M (α × S)
  | .done a, s => pure (a, s)
  | .ask q k, s => do
    let r ← handler q s
    interpret handler (k r.1) r.2

section Interpret

variable {M : Type → Type} [Monad M] {S : Type} {handler : (q : Q) → S → M (A q × S)}

@[simp] theorem interpret_done (a : α) (s : S) :
    interpret handler (.done a) s = pure (a, s) := rfl

theorem interpret_ask (q : Q) (k : A q → Program Q A α) (s : S) :
    interpret handler (.ask q k) s = handler q s >>= fun r => interpret handler (k r.1) r.2 := rfl

theorem interpret_request_bind (q : Q) (f : A q → Program Q A α) (s : S) :
    interpret handler (request q >>= f) s =
      handler q s >>= fun r => interpret handler (f r.1) r.2 := rfl

theorem interpret_bind [LawfulMonad M] (f : α → Program Q A β) (p : Program Q A α) :
    ∀ s : S, interpret handler (p >>= f) s =
      interpret handler p s >>= fun r => interpret handler (f r.1) r.2 := by
  induction p with
  | done a => exact fun s => by simp
  | ask q k ih =>
    intro s
    simp only [ask_bind, interpret_ask, bind_assoc]
    exact bind_congr fun r => ih r.1 r.2

end Interpret

/-! ### Embedding -/

/-- The same conversation with requests of a larger system. -/
def embed {Q' : Type} {A' : Q' → Type} (f : Q → Q') (back : (q : Q) → A' (f q) → A q) :
    Program Q A α → Program Q' A' α
  | .done a => .done a
  | .ask q k => .ask (f q) fun r => embed f back (k (back q r))

end Program

/-! ### Refinement -/

section Refinement

variable {Q' : Type} {A' : Q' → Type} {σ τ S : Type} {V : World Q A τ} {W : World Q' A' σ}
  {N : Move Q A τ → Prop} {G : List (Move Q' A' σ) → Move Q' A' σ → Prop}
  {handler : (q : Q) → S → Program Q' A' (A q × S)} {abs : S → σ → τ}

/-- **A program is run by its handlers.** If every handler does what the abstract world may do with
its request, and keeps a guarantee when the request satisfies `N`, then a program whose requests all
satisfy `N` keeps the guarantee when its requests are answered by the handlers. -/
theorem World.Guarantees.interpret
    (hhandler : ∀ q t past s,
      (∀ c, V.allowed (abs t s) q c = true → N (V.move (abs t s) q c)) →
      W.Guarantees G (handler q t) (fun r _ s' => ∃ c, V.allowed (abs t s) q c = true ∧
        V.answer (abs t s) q c = (r.1, abs r.2 s')) past s)
    {post : α → τ → Prop} {p : Program Q A α} :
    ∀ {pastV : List (Move Q A τ)} {past : List (Move Q' A' σ)} {s : σ} {t : S},
      V.Guarantees (fun _ m => N m) p (fun a _ u => post a u) pastV (abs t s) →
      W.Guarantees G (p.interpret handler t) (fun r _ s' => post r.1 (abs r.2 s')) past s := by
  induction p with
  | done a => exact fun h => h
  | ask q k ih =>
    intro pastV past s t h
    rw [Program.interpret_ask, World.guarantees_bind]
    refine (hhandler q t past s fun c hc => (h c hc).1).mono ?_
    rintro ⟨r, t'⟩ past' s' ⟨c, hc, hanswer⟩
    have hrest := (h c hc).2
    rw [hanswer] at hrest
    exact ih r hrest

end Refinement

end Interaction
