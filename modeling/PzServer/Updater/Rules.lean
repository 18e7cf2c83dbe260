import PzServer.Updater.Protocol

/-!
# Rules for conformance

`Conforms op start p ok err past s` says of a program `p` inside operation `op` that every move is
`Permitted`, and what is true where it returns and where it raises. Below are its rules: one for a
request, from the request's `Effect`; one for requests that change nothing; one for replacing the
record; and those for the source's `except` clauses.
-/

namespace PzServer

namespace Updater

open Interaction

variable {α β : Type} {op : Operation} {start s : Disk} {past : List UpdaterMove}

/-- What every execution of `p` inside operation `op` does. -/
abbrev Conforms (op : Operation) (start : Disk) (p : UpdaterM α)
    (ok : α → List UpdaterMove → Disk → Prop) (err : Err → List UpdaterMove → Disk → Prop)
    (past : List UpdaterMove) (s : Disk) : Prop :=
  world.Ensures (Permitted op start) p ok err past s

/-- Anything may have been raised, and the disk satisfies `P`. -/
def Fails (P : Disk → Prop) (_ : Err) (_ : List UpdaterMove) (s : Disk) : Prop := P s

variable {ok : α → List UpdaterMove → Disk → Prop} {err : Err → List UpdaterMove → Disk → Prop}

/-! ### Requests -/

/-- One request, from its effect. -/
theorem conforms_ask {q : Request} {ok : Value q → List UpdaterMove → Disk → Prop}
    (hquery : ∀ branch, q ≠ .latestBuild branch) (hraise : q ≠ .raiseAmbiguous)
    (hchange : ∀ r new, Effect s new q r → Change op start past s new)
    (hok : ∀ v new, Effect s new q (.ok v) → ok v (⟨q, .ok v, s, new⟩ :: past) new)
    (herr : ∀ e new, Effect s new q (.error e) → err e (⟨q, .error e, s, new⟩ :: past) new) :
    Conforms op start (ask q) ok err past s := by
  refine World.ensures_ask fun c hc => ?_
  have heffect := effect_answer hc
  refine ⟨⟨hchange _ _ heffect, fun branch hb => absurd hb (hquery branch), hraise⟩, ?_⟩
  simp only [world, World.move]
  cases hr : (answer s q c).1 with
  | ok v =>
    rw [hr] at heffect
    simpa [hr] using hok v _ heffect
  | error e =>
    rw [hr] at heffect
    simpa [hr] using herr e _ heffect

/-- The requests that change nothing; asking Steam is not among them, it needs permission. -/
def Request.Reads : Request → Prop
  | .writeState _ | .writeActive _ | .writePrevious _ | .unlinkPrevious | .install ..
  | .mkdir _ | .rmtree _ | .promote .. | .writeLauncherJson .. | .replaceWrapper _
  | .latestBuild _ | .raiseAmbiguous => False
  | _ => True

theorem Effect.eq_of_reads {d new : Disk} {q : Request} {r : Reply q} (h : Effect d new q r)
    (hq : q.Reads) : new = d := by
  cases q <;> first
    | exact hq.elim
    | (cases r <;> simp_all [Effect])

/-- One request that changes nothing. -/
theorem conforms_read {q : Request} {ok : Value q → List UpdaterMove → Disk → Prop} (hq : q.Reads)
    (hok : ∀ v, Effect s s q (.ok v) → ok v (⟨q, .ok v, s, s⟩ :: past) s)
    (herr : ∀ e past', err e past' s) :
    Conforms op start (ask q) ok err past s := by
  refine conforms_ask (fun branch hb => by simp [hb, Request.Reads] at hq)
    (fun hb => by simp [hb, Request.Reads] at hq) (fun r new h => ?_) (fun v new h => ?_)
    fun e new h => ?_
  · rw [h.eq_of_reads hq]
    exact .same s
  · obtain rfl := h.eq_of_reads hq
    exact hok v h
  · obtain rfl := h.eq_of_reads hq
    exact herr e _

theorem Written.change {d d' new : Disk} {r : Except Err Unit} (h : Written d d' new r)
    (hc : Change op start past d d') : Change op start past d new := by
  cases r with
  | ok => exact h ▸ hc
  | error =>
    rcases h with rfl | rfl
    · exact .same _
    · exact hc

/-- Replacing the record. -/
theorem writeState_conforms {value : Record} {ok : Record → List UpdaterMove → Disk → Prop}
    (h : RecordChange op s value)
    (hok : ∀ past', past <:+ past' → ok value past' { s with record := some value })
    (herr : ∀ e past', err e past' s ∧ err e past' { s with record := some value }) :
    Conforms op start (writeState value) ok err past s := by
  refine .bind (conforms_ask (by simp) (by simp) (fun r new he => ?_) (fun v new he => ?_)
    fun e new he => ?_)
  · exact Written.change he (.record h)
  · obtain rfl := he
    exact World.ensures_pure (hok _ (List.suffix_cons _ _))
  · rcases he with rfl | rfl
    · exact (herr e _).1
    · exact (herr e _).2

/-- One request that changes nothing, and what follows it. -/
theorem conforms_read_bind {q : Request} {f : Value q → UpdaterM α} (hq : q.Reads)
    (hok : ∀ v past', Effect s s q (.ok v) → past <:+ past' → Seen q (.ok v) past' →
      Conforms op start (f v) ok err past' s)
    (herr : ∀ e past', err e past' s) :
    Conforms op start (ask q >>= f) ok err past s :=
  .bind (conforms_read hq (fun v hv => hok v _ hv (List.suffix_cons _ _)
    ⟨_, _, List.mem_cons_self⟩) herr)

/-- Replacing the record keeps the invariant. -/
theorem writeState_inv {value : Record} {ok : Record → List UpdaterMove → Disk → Prop}
    (hs : Inv s) (hr : RecordChange op s value)
    (hok : ∀ past', past <:+ past' → Inv { s with record := some value } →
      ok value past' { s with record := some value }) :
    Conforms op start (writeState value) ok (Fails Inv) past s :=
  writeState_conforms hr (fun _ hsuf => hok _ hsuf (hr.inv hs))
    fun _ _ => ⟨hs, hr.inv hs⟩

/-! ### Exceptions -/

theorem exceptOn_conforms {catches : Err → Bool} {body : UpdaterM α} {handler : Err → UpdaterM α}
    {okp : α → List UpdaterMove → Disk → Prop} {errp : Err → List UpdaterMove → Disk → Prop}
    (h : Conforms op start body okp errp past s)
    (hok : ∀ a past' s', past <:+ past' → okp a past' s' → ok a past' s')
    (hhandler : ∀ e past' s', past <:+ past' → errp e past' s' → catches e = true →
      Conforms op start (handler e) ok err past' s')
    (hother : ∀ e past' s', past <:+ past' → errp e past' s' → err e past' s') :
    Conforms op start (exceptOn catches body handler) ok err past s := by
  refine World.Ensures.handle h hok fun e past' s' hsuf he => ?_
  split
  · exact hhandler e past' s' hsuf he ‹_›
  · exact World.ensures_throw (hother e past' s' hsuf he)

theorem reraise_conforms {e : Err} {text : String} {P : Disk → Prop} (hs : P s) :
    Conforms op start (reraise e text : UpdaterM α) ok (Fails P) past s := by
  unfold reraise
  split
  · exact World.ensures_throw hs
  · exact World.ensures_throw hs

end Updater

end PzServer
