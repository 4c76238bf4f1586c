import Mathlib.Data.List.Basic
import Mathlib.Tactic

/-!
# Codes that can be read from the front

The code of a value stands before more symbols.  `Reads ok Ends enc a` says that `a` is found again:
no other value has a code that begins the same text, as long as what follows is allowed by `Ends`.
So a code that is put together from readable parts is injective (`Reads.inj`), without a reader
of the whole being written down.

* `reads_reader`       a code with a reader;
* `reads_span`         code words of one kind of symbols, ended by any other symbol;
* `Reads.append`, `Reads.after`, `Reads.map`   one code after another, a fixed text before a code, a
                       code of an image;
* `closed_reads`       words one after another up to a closing symbol;
* `listed_reads`       words with separators between them, up to a closing symbol.
-/

set_option linter.unusedSectionVars false

namespace Lib.Encoding

variable {α β γ : Type}

/-- `a` can be told from every other value by its code, whatever follows the two codes -/
def Reads (ok : α → Prop) (Ends : List β → Prop) (enc : α → List β) (a : α) : Prop :=
  ok a → ∀ b s t, ok b → Ends s → Ends t → enc a ++ s = enc b ++ t → a = b ∧ s = t

/-- nothing is asked of what follows -/
def Anything : List β → Prop := fun _ => True

/-- the first symbol, if there is one, is not of the kind `p` -/
def Stops (p : β → Bool) : List β → Prop := fun s => s.head?.all (fun b => !p b) = true

section
variable {ok : α → Prop} {Ends : List β → Prop} {enc : α → List β} {a : α}

theorem Reads.inj (h : Reads ok Ends enc a) (hend : Ends []) (ha : ok a) {b : α} (hb : ok b)
    (heq : enc a = enc b) : a = b :=
  (h ha b [] [] hb hend hend (by rw [heq])).1

theorem Reads.mono (h : Reads ok Ends enc a) {ok' : α → Prop} {Ends' : List β → Prop}
    (hok : ∀ b, ok' b → ok b) (hends : ∀ s, Ends' s → Ends s) : Reads ok' Ends' enc a :=
  fun ha b s t hb hs ht => h (hok a ha) b s t (hok b hb) (hends s hs) (hends t ht)

/-- a fixed text before the code -/
theorem Reads.after (h : Reads ok Ends enc a) (x : List β) :
    Reads ok Ends (fun b => x ++ enc b) a := by
  intro ha b s t hb hs ht heq
  simp only [List.append_assoc] at heq
  exact h ha b s t hb hs ht (List.append_cancel_left heq)

/-- the code of an image under a function that is injective on the valid values -/
theorem Reads.map {f : γ → α} {c : γ} (h : Reads ok Ends enc (f c)) {ok' : γ → Prop}
    (hok : ∀ d, ok' d → ok (f d)) (hf : ∀ d, ok' c → ok' d → f c = f d → c = d) :
    Reads ok' Ends (fun d => enc (f d)) c := by
  intro hc d s t hd hs ht heq
  obtain ⟨hfc, hst⟩ := h (hok c hc) (f d) s t (hok d hd) hs ht heq
  exact ⟨hf d hc hd hfc, hst⟩

/-- one code after another: what follows the first is the second -/
theorem Reads.append {ok' : γ → Prop} {Ends' : List β → Prop} {enc' : γ → List β} {c : γ}
    (h : Reads ok Ends enc a) (h' : Reads ok' Ends' enc' c)
    (hends : ∀ d s, ok' d → Ends' s → Ends (enc' d ++ s)) :
    Reads (fun p : α × γ => ok p.1 ∧ ok' p.2) Ends' (fun p => enc p.1 ++ enc' p.2) (a, c) := by
  rintro ⟨ha, hc⟩ ⟨b, d⟩ s t ⟨hb, hd⟩ hs ht heq
  simp only [List.append_assoc] at heq
  obtain ⟨rfl, hrest⟩ := h ha b _ _ hb (hends c s hc hs) (hends d t hd ht) heq
  obtain ⟨rfl, rfl⟩ := h' hc d s t hd hs ht hrest
  exact ⟨rfl, rfl⟩

/-- a code with a reader -/
theorem reads_reader {read : List β → Option (α × List β)}
    (h : ∀ b s, ok b → read (enc b ++ s) = some (b, s)) : Reads ok Anything enc a := by
  intro ha b s t hb _ _ heq
  have hread : some (a, s) = some (b, t) := by rw [← h a s ha, heq, h b t hb]
  exact ⟨congrArg Prod.fst (Option.some.inj hread), congrArg Prod.snd (Option.some.inj hread)⟩

theorem takeWhile_stops {p : β → Bool} {x s : List β} (hx : ∀ b ∈ x, p b = true)
    (hs : Stops p s) : (x ++ s).takeWhile p = x := by
  rw [List.takeWhile_append_of_pos hx]
  cases s with
  | nil => exact List.append_nil x
  | cons b s =>
    have hb : p b = false := by simpa [Stops] using hs
    rw [List.takeWhile_cons, hb]
    exact List.append_nil x

/-- code words of one kind of symbols end where another symbol follows -/
theorem reads_span {p : β → Bool} (hp : ∀ b, ok b → ∀ c ∈ enc b, p c = true)
    (hinj : ∀ b, ok a → ok b → enc a = enc b → a = b) : Reads ok (Stops p) enc a := by
  intro ha b s t hb hs ht heq
  have hcode : enc a = enc b := by
    rw [← takeWhile_stops (hp a ha) hs, heq, takeWhile_stops (hp b hb) ht]
  rw [hcode] at heq
  exact ⟨hinj b ha hb hcode, List.append_cancel_left heq⟩

/-! ## sequences -/

/-- words one after another, then the closing symbol -/
def closed (enc : α → List β) (close : β) : List α → List β
  | [] => [close]
  | a :: as => enc a ++ closed enc close as

/-- a separator before every word, then the closing symbol -/
def separated (enc : α → List β) (sep close : β) (as : List α) : List β :=
  closed (fun a => sep :: enc a) close as

/-- words with a separator between them, then the closing symbol -/
def listed (enc : α → List β) (sep close : β) : List α → List β
  | [] => [close]
  | a :: as => enc a ++ separated enc sep close as

/-- a valid code word is there, and does not begin with the symbol -/
def Opens (ok : α → Prop) (enc : α → List β) (close : β) : Prop :=
  ∀ a, ok a → ∃ b x, enc a = b :: x ∧ b ≠ close

/-- the end of a sequence and one more word cannot begin the same text -/
theorem Opens.ne {close : β} (h : Opens ok enc close) (ha : ok a) {s t : List β} :
    [close] ++ s ≠ enc a ++ t := by
  obtain ⟨b, x, henc, hne⟩ := h a ha
  rw [henc]
  intro heq
  exact hne (List.cons.inj heq).1.symm

theorem closed_reads {close : β} (hopen : Opens ok enc close) {as : List α}
    (h : ∀ a ∈ as, Reads ok Ends enc a)
    (hends : ∀ bs s, (∀ b ∈ bs, ok b) → Ends (closed enc close bs ++ s)) :
    Reads (fun bs => ∀ b ∈ bs, ok b) Anything (closed enc close) as := by
  induction as with
  | nil =>
    intro _ bs s t hbs _ _ heq
    cases bs with
    | nil => exact ⟨rfl, List.append_cancel_left heq⟩
    | cons b bs =>
      rw [closed, closed, List.append_assoc] at heq
      exact absurd heq (hopen.ne (hbs b List.mem_cons_self))
  | cons a as ih =>
    intro has bs s t hbs _ _ heq
    cases bs with
    | nil =>
      rw [closed, closed, List.append_assoc] at heq
      exact absurd heq.symm (hopen.ne (has a List.mem_cons_self))
    | cons b bs =>
      have has' : ∀ a ∈ as, ok a := fun a' ha' => has a' (List.mem_cons_of_mem _ ha')
      have hbs' : ∀ b ∈ bs, ok b := fun b' hb' => hbs b' (List.mem_cons_of_mem _ hb')
      rw [closed, closed, List.append_assoc, List.append_assoc] at heq
      obtain ⟨rfl, hrest⟩ := h a List.mem_cons_self (has a List.mem_cons_self) b _ _
        (hbs b List.mem_cons_self) (hends as s has') (hends bs t hbs') heq
      obtain ⟨rfl, rfl⟩ := ih (fun a' ha' => h a' (List.mem_cons_of_mem _ ha')) has' bs s t hbs'
        trivial trivial hrest
      exact ⟨rfl, rfl⟩

theorem separated_reads {sep close : β} (hne : sep ≠ close) {as : List α}
    (h : ∀ a ∈ as, Reads ok Ends enc a) (hclose : ∀ s, Ends (close :: s))
    (hsep : ∀ s, Ends (sep :: s)) :
    Reads (fun bs => ∀ b ∈ bs, ok b) Anything (separated enc sep close) as := by
  refine closed_reads (fun b _ => ⟨sep, enc b, rfl, hne⟩) (fun a ha => (h a ha).after [sep])
    fun bs s _ => ?_
  cases bs with
  | nil => exact hclose s
  | cons b bs => exact hsep _

/-- what follows a word of a list is a separator or the closing symbol -/
theorem ends_separated {sep close : β} (hclose : ∀ s, Ends (close :: s))
    (hsep : ∀ s, Ends (sep :: s)) (as : List α) (s : List β) :
    Ends (separated enc sep close as ++ s) := by
  cases as with
  | nil => exact hclose s
  | cons a as => exact hsep _

theorem listed_reads {sep close : β} (hne : sep ≠ close) (hopen : Opens ok enc close)
    {as : List α} (h : ∀ a ∈ as, Reads ok Ends enc a) (hclose : ∀ s, Ends (close :: s))
    (hsep : ∀ s, Ends (sep :: s)) :
    Reads (fun bs => ∀ b ∈ bs, ok b) Anything (listed enc sep close) as := by
  intro has bs s t hbs _ _ heq
  cases as with
  | nil =>
    cases bs with
    | nil => exact ⟨rfl, List.append_cancel_left heq⟩
    | cons b bs =>
      rw [listed, listed, List.append_assoc] at heq
      exact absurd heq (hopen.ne (hbs b List.mem_cons_self))
  | cons a as =>
    cases bs with
    | nil =>
      rw [listed, listed, List.append_assoc] at heq
      exact absurd heq.symm (hopen.ne (has a List.mem_cons_self))
    | cons b bs =>
      rw [listed, listed, List.append_assoc, List.append_assoc] at heq
      obtain ⟨rfl, hrest⟩ := h a List.mem_cons_self (has a List.mem_cons_self) b _ _
        (hbs b List.mem_cons_self) (ends_separated hclose hsep as s)
        (ends_separated hclose hsep bs t) heq
      obtain ⟨rfl, rfl⟩ := separated_reads hne (fun a' ha' => h a' (List.mem_cons_of_mem _ ha'))
        hclose hsep (fun a' ha' => has a' (List.mem_cons_of_mem _ ha')) bs s t
        (fun b' hb' => hbs b' (List.mem_cons_of_mem _ hb')) trivial trivial hrest
      exact ⟨rfl, rfl⟩

end

end Lib.Encoding
