import ZoneConsole.Proofs.Text.Digits
import ZoneConsole.Report

/-!
# Sequences that colour

A sequence that switches a colour is an escape, a bracket, digits and semicolons, and the letter
`m`.  To take all of them out of a text is to hold back what may become one and to drop it once it
has become one.

* **`Text.uncoloured`** — a text without its sequences.
* **`uncoloured_append`** — a text is cut where no sequence can go on.
* **`uncoloured_sequence`**, **`uncoloured_paintStatus`** — sequences are taken out.
-/

namespace ZoneConsole.Text

/-- The character that begins a sequence. -/
def escape : Char := '\x1b'

/-- May the character stand in a sequence after its escape? -/
def inSequence (c : Char) : Bool := c = '[' || c = 'm' || c = ';' || isDigit c

/-- What is held back after one more character, the last one first.  Nothing is held when a sequence
    has ended, and it is none at all if the character does not go on with it. -/
def hold : List Char → Char → Option (List Char)
  | [], _ => none
  | [e], c => if c = '[' then some [c, e] else none
  | held, c =>
    if c = 'm' then some [] else if c = ';' || isDigit c then some (c :: held) else none

/-- A text without its sequences, where some of it is held back already. -/
def release (held : List Char) : List Char → List Char
  | [] => held.reverse
  | c :: rest =>
    match hold held c with
    | some held => release held rest
    | none => held.reverse ++ if c = escape then release [c] rest else c :: release [] rest

/-- A text without the sequences that switch colours. -/
def uncoloured (cs : List Char) : List Char := release [] cs

@[simp] theorem uncoloured_nil : uncoloured [] = [] := rfl

/-- A sequence does not go on with other characters. -/
theorem hold_of_not_inSequence {c : Char} (h : inSequence c = false) (held : List Char) :
    hold held c = none := by
  simp only [inSequence, Bool.or_eq_false_iff, decide_eq_false_iff_not] at h
  obtain ⟨⟨⟨hbracket, hm⟩, hsemicolon⟩, hdigit⟩ := h
  match held with
  | [] => rfl
  | [e] => exact if_neg hbracket
  | _ :: _ :: _ => simp [hold, hm, hsemicolon, hdigit]

/-- What is held back comes first if the text goes on with something else. -/
theorem release_stops {rest : List Char} (h : Stops inSequence rest) (held : List Char) :
    release held rest = held.reverse ++ uncoloured rest := by
  cases rest with
  | nil => exact (List.append_nil _).symm
  | cons c rest =>
      have hc := hold_of_not_inSequence (h c rfl)
      rw [uncoloured, release, release, hc held, hc []]
      rfl

/-- A text is cut where the rest of it does not go on with a sequence. -/
theorem release_append {rest : List Char} (h : Stops inSequence rest) (cs held : List Char) :
    release held (cs ++ rest) = release held cs ++ uncoloured rest := by
  induction cs generalizing held with
  | nil => exact release_stops h held
  | cons c cs ih =>
      rw [List.cons_append, release, release]
      -- whatever is held, the rest is read the same way with and without what comes after it
      cases hold held c with
      | some held' => exact ih held'
      | none =>
          simp only
          rw [List.append_assoc]
          congr 1
          split
          · exact ih [c]
          · exact congrArg (c :: ·) (ih [])

/-- **A text is cut** where the rest of it does not go on with a sequence. -/
theorem uncoloured_append {rest : List Char} (h : Stops inSequence rest) (cs : List Char) :
    uncoloured (cs ++ rest) = uncoloured cs ++ uncoloured rest :=
  release_append h cs []

/-- What has no escape stands before the rest as it is. -/
theorem uncoloured_append_of_plain {cs : List Char} (h : escape ∉ cs) (rest : List Char) :
    uncoloured (cs ++ rest) = cs ++ uncoloured rest := by
  induction cs with
  | nil => rfl
  | cons c cs ih =>
      have hc := List.ne_of_not_mem_cons h
      have hstep : uncoloured (c :: (cs ++ rest)) = c :: uncoloured (cs ++ rest) :=
        if_neg (Ne.symm hc)
      rw [List.cons_append, hstep, ih (List.not_mem_of_not_mem_cons h)]
      rfl

/-- **What has no escape** has no sequences. -/
theorem uncoloured_of_plain {cs : List Char} (h : escape ∉ cs) : uncoloured cs = cs := by
  have happend := uncoloured_append_of_plain h []
  rwa [List.append_nil, uncoloured_nil, List.append_nil] at happend

/-- Is the text one of parameters of a sequence, which are digits and semicolons? -/
def isParameters (code : List Char) : Bool := code.all fun c => c = ';' || isDigit c

/-- A sequence that has begun is dropped when it ends. -/
theorem release_sequence {code : List Char} (hcode : isParameters code = true) (a b : Char)
    (held rest : List Char) : release (a :: b :: held) (code ++ 'm' :: rest) = uncoloured rest := by
  induction code generalizing a b held with
  | nil => rfl
  | cons c code ih =>
      obtain ⟨hc, hrest⟩ := Bool.and_eq_true_iff.1 hcode
      -- no parameter ends the sequence, and what is held keeps its bracket
      have hm : c ≠ 'm' := by
        rintro rfl
        cases hc
      rw [List.cons_append, release, hold, if_neg hm, if_pos hc]
      · exact ih hrest c a (b :: held)
      · simp
      · simp

/-- **A sequence is taken out.** -/
theorem uncoloured_sequence {code : List Char} (hcode : isParameters code = true)
    (rest : List Char) :
    uncoloured (escape :: '[' :: (code ++ 'm' :: rest)) = uncoloured rest :=
  release_sequence hcode '[' escape [] rest

/-- **Paint is taken out**, and what was painted is cut from the rest. -/
theorem uncoloured_paint {on off : String} (hon : isParameters on.toList = true)
    (hoff : isParameters off.toList = true) (s : String) (rest : List Char) :
    uncoloured ((paint on off s).toList ++ rest) = uncoloured s.toList ++ uncoloured rest := by
  have hpaint : (paint on off s).toList ++ rest = escape :: '[' :: (on.toList ++ 'm' ::
      (s.toList ++ escape :: '[' :: (off.toList ++ 'm' :: rest))) := by
    simp [paint, escape]
  rw [hpaint, uncoloured_sequence hon, uncoloured_append (stops_cons rfl _),
    uncoloured_sequence hoff]

/-- A status is painted with a sequence before it and one after it. -/
theorem exists_paint (status : String) : ∃ on off, isParameters on.toList = true ∧
    isParameters off.toList = true ∧ paintStatus true status = paint on off status := by
  unfold paintStatus
  simp only [Bool.not_true, Bool.false_eq_true, if_false]
  split
  · exact ⟨"32", "39", rfl, rfl, rfl⟩
  · split
    · exact ⟨"33", "39", rfl, rfl, rfl⟩
    · split
      · exact ⟨"31", "39", rfl, rfl, rfl⟩
      · exact ⟨"2", "0", rfl, rfl, rfl⟩

/-- **A painted status** is the status again without its sequences. -/
theorem uncoloured_paintStatus (status : String) (rest : List Char) :
    uncoloured ((paintStatus true status).toList ++ rest) =
      uncoloured status.toList ++ uncoloured rest := by
  obtain ⟨on, off, hon, hoff, hpaint⟩ := exists_paint status
  rw [hpaint, uncoloured_paint hon hoff]

/-- A painted status is never empty. -/
theorem paintStatus_ne_empty (status : String) : paintStatus true status ≠ "" := by
  obtain ⟨on, off, -, -, hpaint⟩ := exists_paint status
  rw [hpaint, paint]
  simp

end ZoneConsole.Text
