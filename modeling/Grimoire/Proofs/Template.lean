import Grimoire.Template
import Grimoire.Proofs.Text.Splitting
import Mathlib.Data.List.Basic

/-!
# Templates cut at their slots

A template is a sequence of literal texts with its slots between them, and the cut depends on the template alone
(`Cut.ofPieces`). To fill the template is to write the texts as they are and the text of an argument in the place
of each slot (`fill_single_pass`), so what an argument brings is never looked at again.
-/
namespace Grimoire.Template

/-- A slot as it is written. -/
def slotText (name : List Char) : List Char := ['$', '{'] ++ name ++ ['}']

/-- What stands for a slot: the text of its argument, or the slot itself when there is none. -/
def slotValue (arguments : Object) (name : List Char) : List Char :=
  match Object.get? arguments (String.ofList name) with
  | some value => value.coerceChars
  | none => slotText name

/-- A piece with something written for a slot. -/
def Piece.write (slot : List Char → List Char) : Piece → List Char
  | .char c => [c]
  | .slot name => slot name

theorem Piece.source_eq : Piece.source = Piece.write slotText := by
  funext p
  cases p <;> rfl

theorem Piece.fill_eq (arguments : Object) : Piece.fill arguments = Piece.write (slotValue arguments) := by
  funext p
  cases p <;> rfl

/-! ## Cuts -/

/-- A text cut at its slots. -/
structure Cut where
  /-- Literal texts, each with the name of the slot behind it. -/
  parts : List (List Char × List Char)
  /-- The literal text behind the last slot. -/
  rest : List Char

namespace Cut

def names (cut : Cut) : List (List Char) := cut.parts.map (·.2)

/-- The literal texts, with something written for each slot. -/
def write (cut : Cut) (slot : List Char → List Char) : List Char :=
  cut.parts.flatMap (fun (text, name) => text ++ slot name) ++ cut.rest

/-- Cut where a slot can be read from left to right, and nowhere else. -/
structure Clean (cut : Cut) : Prop where
  /-- No slot begins inside a text that a slot follows. -/
  texts : ∀ part ∈ cut.parts, ¬ ['$', '{'] <:+: part.1
  names : ∀ part ∈ cut.parts, '}' ∉ part.2
  /-- There is no slot behind the last one. -/
  rest : ∀ name, ¬ slotText name <:+: cut.rest

/-- One more character in front. -/
def push (c : Char) (cut : Cut) : Cut :=
  match cut.parts with
  | [] => { cut with rest := c :: cut.rest }
  | (text, name) :: parts => { cut with parts := (c :: text, name) :: parts }

/-- The cut of a template in pieces: characters side by side are one text. -/
def ofPieces : List Piece → Cut
  | [] => ⟨[], []⟩
  | .char c :: ps => (ofPieces ps).push c
  | .slot name :: ps => { ofPieces ps with parts := ([], name) :: (ofPieces ps).parts }

variable {cut : Cut}

@[simp] theorem write_push (c : Char) (cut : Cut) (slot : List Char → List Char) :
    (cut.push c).write slot = c :: cut.write slot := by
  unfold push write
  cases cut.parts <;> simp

@[simp] theorem names_push (c : Char) (cut : Cut) : (cut.push c).names = cut.names := by
  unfold push names
  cases h : cut.parts <;> simp

theorem write_ofPieces (slot : List Char → List Char) (ps : List Piece) :
    (ofPieces ps).write slot = ps.flatMap (Piece.write slot) := by
  induction ps with
  | nil => rfl
  | cons p ps ih =>
    cases p with
    | char c => simp [ofPieces, Piece.write, ih]
    | slot name => simpa [ofPieces, write, Piece.write] using ih

theorem names_ofPieces (ps : List Piece) : (ofPieces ps).names.map String.ofList = ps.filterMap Piece.name? := by
  induction ps with
  | nil => rfl
  | cons p ps ih =>
    cases p with
    | char c =>
      rw [List.filterMap_cons_none (by rfl), ofPieces, names_push, ih]
    | slot name =>
      rw [List.filterMap_cons_some (by rfl), ← ih]
      rfl

/-- What is written depends on the slots that are there only. -/
theorem write_congr {slot slot' : List Char → List Char} (h : ∀ name ∈ cut.names, slot name = slot' name) :
    cut.write slot = cut.write slot' := by
  unfold write
  refine congrArg (· ++ cut.rest) (List.flatMap_congr fun part hpart => ?_)
  exact congrArg (part.1 ++ ·) (h part.2 (List.mem_map_of_mem hpart))

/-! ## Clean cuts -/

theorem clean_nil : (ofPieces []).Clean :=
  ⟨by simp [ofPieces], by simp [ofPieces], by simp [ofPieces, slotText]⟩

theorem Clean.tail {part : List Char × List Char} {parts : List (List Char × List Char)} {rest : List Char}
    (h : Clean ⟨part :: parts, rest⟩) : Clean ⟨parts, rest⟩ :=
  ⟨fun p hp => h.texts p (List.mem_cons_of_mem _ hp), fun p hp => h.names p (List.mem_cons_of_mem _ hp), h.rest⟩

/-- One more character brings no slot into a text when it does not open one with the text. -/
theorem infix_of_infix_cons {slot text : List Char} {c : Char} (hc : c = '$' → text.head? ≠ some '{')
    (h : '$' :: '{' :: slot <:+: c :: text) : '$' :: '{' :: slot <:+: text := by
  rcases List.infix_cons_iff.1 h with ⟨tail, htail⟩ | hinside
  · obtain ⟨rfl, rfl⟩ : '$' = c ∧ '{' :: (slot ++ tail) = text := by simpa using htail
    exact absurd rfl (hc rfl)
  · exact hinside

/-- A character that begins no slot may stand in front. -/
theorem Clean.push (h : cut.Clean) {c : Char}
    (hc : c = '$' → (cut.write slotText).head? ≠ some '{') : (cut.push c).Clean := by
  obtain ⟨parts, rest⟩ := cut
  cases parts with
  | nil =>
    refine ⟨by simp [Cut.push], by simp [Cut.push], fun name hslot => ?_⟩
    exact h.rest name (infix_of_infix_cons hc hslot)
  | cons part parts =>
    obtain ⟨text, name⟩ := part
    have hfirst : ¬ ['$', '{'] <:+: c :: text := by
      refine fun hslot => h.texts _ List.mem_cons_self (infix_of_infix_cons (fun hdollar hhead => ?_) hslot)
      exact hc hdollar (by simp [write, hhead])
    refine ⟨fun p hp => ?_, fun p hp => ?_, h.rest⟩
    · rcases List.mem_cons.1 hp with rfl | hp
      · exact hfirst
      · exact h.tail.texts p hp
    · rcases List.mem_cons.1 hp with rfl | hp
      · exact h.names (text, name) List.mem_cons_self
      · exact h.tail.names p hp

/-- Without a closing brace there is no slot, whatever stands in front. -/
theorem Clean.push_of_unclosed (h : '}' ∉ cut.write slotText) {c : Char} (hc : c ≠ '}') : (cut.push c).Clean := by
  obtain ⟨parts, rest⟩ := cut
  cases parts with
  | nil =>
    refine ⟨by simp [Cut.push], by simp [Cut.push], fun name hslot => ?_⟩
    have hclose : '}' ∈ c :: rest := hslot.subset (by simp [slotText])
    rcases List.mem_cons.1 hclose with heq | hmem
    · exact hc heq.symm
    · exact h hmem
  | cons part parts => simp [write, slotText] at h

theorem eq_nil_of_opening {more tail tail' : List Char} (h : ¬ ['$', '{'] <:+: more)
    (heq : '$' :: '{' :: tail = more ++ '$' :: '{' :: tail') : more = [] := by
  match more with
  | [] => rfl
  | [c] => simp at heq
  | c :: d :: rest =>
    obtain ⟨rfl, rfl, -⟩ : '$' = c ∧ '{' = d ∧ tail = rest ++ '$' :: '{' :: tail' := by simpa using heq
    exact absurd ⟨[], rest, rfl⟩ h

/-- A text without an opening ends where the first opening begins. -/
theorem text_unique {text text' tail tail' : List Char} (h : ¬ ['$', '{'] <:+: text) (h' : ¬ ['$', '{'] <:+: text')
    (heq : text ++ '$' :: '{' :: tail = text' ++ '$' :: '{' :: tail') : text = text' ∧ tail = tail' := by
  rcases List.append_eq_append_iff.1 heq with ⟨more, rfl, hmore⟩ | ⟨more, rfl, hmore⟩
  · obtain rfl := eq_nil_of_opening (fun hin => h' (hin.trans (List.suffix_append ..).isInfix)) hmore
    simpa using hmore
  · obtain rfl := eq_nil_of_opening (fun hin => h (hin.trans (List.suffix_append ..).isInfix)) hmore
    simpa [eq_comm] using hmore

theorem write_cons (text name : List Char) (parts : List (List Char × List Char)) (rest : List Char) :
    write ⟨(text, name) :: parts, rest⟩ slotText =
      text ++ '$' :: '{' :: (name ++ '}' :: write ⟨parts, rest⟩ slotText) := by
  simp [write, slotText]

theorem Clean.not_slot_rest {rest : List Char} (h : Clean ⟨[], rest⟩) (part : List Char × List Char)
    (parts : List (List Char × List Char)) (rest' : List Char) : rest ≠ write ⟨part :: parts, rest'⟩ slotText := by
  rintro rfl
  refine h.rest part.2 ⟨part.1, write ⟨parts, rest'⟩ slotText, ?_⟩
  simp [write, slotText]

/-- **A text has one clean cut.** -/
theorem Clean.unique {cut cut' : Cut} (h : cut.Clean) (h' : cut'.Clean)
    (heq : cut.write slotText = cut'.write slotText) : cut = cut' := by
  obtain ⟨parts, rest⟩ := cut
  obtain ⟨parts', rest'⟩ := cut'
  induction parts generalizing parts' with
  | nil =>
    cases parts' with
    | nil => exact congrArg (Cut.mk []) (by simpa [write] using heq)
    | cons part parts' => exact absurd heq (h.not_slot_rest part parts' rest')
  | cons part parts ih =>
    cases parts' with
    | nil => exact absurd heq.symm (h'.not_slot_rest part parts rest)
    | cons part' parts' =>
      obtain ⟨text, name⟩ := part
      obtain ⟨text', name'⟩ := part'
      rw [write_cons, write_cons] at heq
      obtain ⟨rfl, htail⟩ :=
        text_unique (h.texts _ List.mem_cons_self) (h'.texts _ List.mem_cons_self) heq
      have hsplit := Text.splitOnce_append (h.names _ List.mem_cons_self) (write ⟨parts, rest⟩ slotText)
      rw [htail, Text.splitOnce_append (h'.names _ List.mem_cons_self)] at hsplit
      obtain ⟨rfl, hmore⟩ : name' = name ∧ write ⟨parts', rest'⟩ slotText = write ⟨parts, rest⟩ slotText := by
        simpa using hsplit
      obtain ⟨rfl, rfl⟩ := Cut.mk.inj (ih h.tail parts' h'.tail hmore.symm)
      rfl

end Cut

/-! ## The pieces of a template -/

theorem slotName?_eq_splitOnce (cs : List Char) : slotName? cs = Text.splitOnce '}' cs := by
  induction cs with
  | nil => rfl
  | cons c cs ih => rw [slotName?, Text.splitOnce, ih]

/-- The pieces are the template, in the order of the text. -/
theorem source_pieces (cs : List Char) : (pieces cs).flatMap Piece.source = cs := by
  fun_induction pieces cs with
  | case1 => rfl
  | case2 c => rfl
  | case3 c d cs hopen name rest hname _ ih =>
    rw [slotName?_eq_splitOnce] at hname
    obtain ⟨rfl, -⟩ := Text.splitOnce_eq_some.1 hname
    simp [Piece.source, ih, hopen]
  | case4 c d cs hopen hname ih => simp [Piece.source, ih]
  | case5 c d cs hopen ih => simp [Piece.source, ih]

theorem write_pieces (cs : List Char) : (Cut.ofPieces (pieces cs)).write slotText = cs := by
  rw [Cut.write_ofPieces, ← Piece.source_eq, source_pieces]

/-- **The cut of a template is clean**: a slot is read wherever one begins and is closed. -/
theorem clean_pieces (cs : List Char) : (Cut.ofPieces (pieces cs)).Clean := by
  fun_induction pieces cs with
  | case1 => exact Cut.clean_nil
  | case2 c => exact Cut.clean_nil.push fun _ => by simp [Cut.write, Cut.ofPieces]
  | case3 c d cs hopen name rest hname _ ih =>
    rw [slotName?_eq_splitOnce] at hname
    obtain ⟨-, hclosed⟩ := Text.splitOnce_eq_some.1 hname
    refine ⟨fun part hpart => ?_, fun part hpart => ?_, ih.rest⟩
    · rcases List.mem_cons.1 hpart with rfl | hpart
      · simp
      · exact ih.texts part hpart
    · rcases List.mem_cons.1 hpart with rfl | hpart
      · exact hclosed
      · exact ih.names part hpart
  | case4 c d cs hopen hname ih =>
    -- The opening is never closed: no closing brace follows.
    rw [slotName?_eq_splitOnce, Text.splitOnce_eq_none] at hname
    obtain ⟨rfl, rfl⟩ := hopen
    refine Cut.Clean.push_of_unclosed ?_ (by decide)
    rw [write_pieces]
    simpa using hname
  | case5 c d cs hopen ih =>
    refine ih.push fun hc => ?_
    rw [write_pieces]
    simpa using fun hd => hopen ⟨hc, hd⟩

/-- **Filling is one pass.** Each template is cut, in one way for all arguments, into literal texts with its
slots between them: no slot begins in a text before a slot, no name holds a closing brace, and behind the last
slot there is none; no other cut is like that. Filled, the template has the same texts, and for each slot the
text of its argument, or the slot as it was when it has none. So arguments that no slot names do not matter. -/
theorem fill_single_pass (template : String) : ∃ cut : Cut, cut.Clean ∧ cut.write slotText = template.toList ∧
    (∀ other : Cut, other.Clean → other.write slotText = template.toList → other = cut) ∧
    names template = cut.names.map String.ofList ∧
    (∀ arguments, (fill template arguments).toList = cut.write (slotValue arguments)) ∧
    ∀ arguments others,
      (∀ name ∈ names template, Object.get? arguments name = Object.get? others name) →
        fill template arguments = fill template others := by
  have hnames := Cut.names_ofPieces (pieces template.toList)
  have hwrite := write_pieces template.toList
  have hclean := clean_pieces template.toList
  have hfill (arguments : Object) : (fill template arguments).toList =
      (Cut.ofPieces (pieces template.toList)).write (slotValue arguments) := by
    rw [fill, String.toList_ofList, Cut.write_ofPieces, Piece.fill_eq]
  refine ⟨_, hclean, hwrite, ?_, hnames.symm, hfill, ?_⟩
  · intro other hother htext
    exact hother.unique hclean (htext.trans hwrite.symm)
  · intro arguments others hsame
    refine String.toList_inj.1 ?_
    rw [hfill, hfill]
    refine Cut.write_congr fun name hname => ?_
    have hslot : String.ofList name ∈ names template := by
      rw [names, ← hnames]
      exact List.mem_map_of_mem hname
    rw [slotValue, slotValue, hsame _ hslot]

/-- What an argument brings joins no slot with the text around it. -/
example : fill "$\x7ba\x7d\x7bb\x7d" [("a", .string "$"), ("b", .string "!")] = "$\x7bb\x7d" := by
  cbv

end Grimoire.Template
