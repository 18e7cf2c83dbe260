import PzServer.Updater.Requests
import PzServer.Watchdog.Text

/-!
# Reading text files

A file is decoded as UTF-8, and its line ends are turned: to Python, a carriage return, with or
without a line feed after it, is a line feed.

## Main results

* `universalNewlines_append`, `universalNewlines_keeps` — turning line ends part by part
* `readText_written` — a text without carriage returns is read back
-/

namespace PzServer

namespace Updater

open Watchdog (Text)

/-- The line ends of a text file that is read: each becomes a line feed. -/
def universalNewlines : Text → Text
  | '\r' :: '\n' :: t => '\n' :: universalNewlines t
  | '\r' :: t => '\n' :: universalNewlines t
  | c :: t => c :: universalNewlines t
  | [] => []

/-- Decoding a file as UTF-8. -/
def decodeText (content : ByteArray) : Except Err Text :=
  match content.utf8Decode? with
  | some text => .ok text.toList
  | none => .error (.other "UnicodeDecodeError")

/-- `read_text(encoding="utf-8")` -/
def readText (content : ByteArray) : Except Err Text := universalNewlines <$> decodeText content

section LineEnds

variable {s t : Text} {c : Char}

theorem universalNewlines_cons (hc : c ≠ '\r') :
    universalNewlines (c :: t) = c :: universalNewlines t := by
  rw [universalNewlines.eq_def]
  split <;> simp_all

theorem universalNewlines_crlf (t : Text) :
    universalNewlines ('\r' :: '\n' :: t) = '\n' :: universalNewlines t := by
  rw [universalNewlines]

theorem universalNewlines_return (ht : t.head? ≠ some '\n') :
    universalNewlines ('\r' :: t) = '\n' :: universalNewlines t := by
  cases t with
  | nil => rfl
  | cons d t =>
    rw [universalNewlines]
    rintro t' heq
    rw [heq] at ht
    exact ht rfl

theorem head?_ne_newline (h : ∀ t, s = '\n' :: t → False) : s.head? ≠ some '\n' := by
  cases s with
  | nil => exact fun hd => by cases hd
  | cons d s => exact fun hd => h s (congrArg (· :: s) (Option.some.inj hd))

/-- Line ends are turned part by part, where no part begins with a line feed. -/
theorem universalNewlines_append (s : Text) (ht : t.head? ≠ some '\n') :
    universalNewlines (s ++ t) = universalNewlines s ++ universalNewlines t := by
  induction s using universalNewlines.induct with
  | case1 s ih =>
    rw [universalNewlines_crlf, List.cons_append, List.cons_append, universalNewlines_crlf, ih]
    rfl
  | case2 s hs ih =>
    have hs' := head?_ne_newline hs
    have hst : (s ++ t).head? ≠ some '\n' := by
      rcases s with _ | ⟨d, s⟩
      · exact ht
      · exact hs'
    rw [List.cons_append, universalNewlines_return hst, universalNewlines_return hs', ih]
    rfl
  | case3 c s hcrlf hc ih =>
    have hc' : c ≠ '\r' := fun h => hc h
    rw [List.cons_append, universalNewlines_cons hc', universalNewlines_cons hc', ih]
    rfl
  | case4 => rfl

theorem universalNewlines_append_cons (hnewline : c ≠ '\n') (hreturn : c ≠ '\r') (s t : Text) :
    universalNewlines (s ++ c :: t) = universalNewlines s ++ c :: universalNewlines t := by
  have hhead : (c :: t).head? ≠ some '\n' := fun h => hnewline (Option.some.inj h)
  rw [universalNewlines_append s hhead, universalNewlines_cons hreturn]

theorem universalNewlines_keeps (hs : ∀ c ∈ s, c ≠ '\r') (t : Text) :
    universalNewlines (s ++ t) = s ++ universalNewlines t := by
  induction s with
  | nil => rfl
  | cons c s ih =>
    obtain ⟨hc, hs⟩ := List.forall_mem_cons.mp hs
    rw [List.cons_append, universalNewlines_cons hc, ih hs]
    rfl

theorem universalNewlines_eq_self (hs : ∀ c ∈ s, c ≠ '\r') : universalNewlines s = s := by
  have h := universalNewlines_keeps hs []
  rwa [List.append_nil, universalNewlines, List.append_nil] at h

/-- No carriage return is left. -/
theorem universalNewlines_ne_return (s : Text) : ∀ c ∈ universalNewlines s, c ≠ '\r' := by
  induction s using universalNewlines.induct with
  | case1 s ih =>
    rw [universalNewlines_crlf]
    exact List.forall_mem_cons.mpr ⟨by decide, ih⟩
  | case2 s hs ih =>
    rw [universalNewlines_return (head?_ne_newline hs)]
    exact List.forall_mem_cons.mpr ⟨by decide, ih⟩
  | case3 c s hcrlf hc ih =>
    have hc' : c ≠ '\r' := fun h => hc h
    rw [universalNewlines_cons hc']
    exact List.forall_mem_cons.mpr ⟨hc', ih⟩
  | case4 => exact fun c hc => by cases hc

/-- What is written is decoded again. -/
theorem decodeText_written (s : Text) : decodeText (String.ofList s).toByteArray = .ok s := by
  rw [decodeText, String.toByteArray_ofList, List.utf8Decode?_utf8Encode]

theorem readText_written (hs : ∀ c ∈ s, c ≠ '\r') :
    readText (String.ofList s).toByteArray = .ok s := by
  rw [readText, decodeText_written]
  exact congrArg Except.ok (universalNewlines_eq_self hs)

end LineEnds

end Updater

end PzServer
