import BlockSketch.Proofs.Block.Registry
import BlockSketch.Proofs.Emission.Calls
import BlockSketch.Proofs.Emission.Told

/-!
Kinds with numbered sockets. Such a kind counts the sockets whose names start with a word, and reads
the sockets with the numbers below that count. It looks each of them up by its name, so the order in
which a node lists its sockets does not matter, but a number that is no less than the count is never
looked up.

The texts of what is read stand in the code of the node one behind the other, in the order of their
numbers.
-/

namespace BlockSketch

open Recipe Block

/-! ### Texts one behind the other -/

/-- Texts stand in a text in this order, and none of them overlaps another one. -/
def Text.InOrder : List String → String → Prop
  | [], _ => True
  | item :: rest, text => ∃ before after, text = before ++ item ++ after ∧ InOrder rest after

namespace Text.InOrder

variable {items items' : List String} {text text' : String}

theorem single (before item after : String) : InOrder [item] (before ++ item ++ after) :=
  ⟨before, after, rfl, trivial⟩

theorem self (item : String) : InOrder [item] item := by
  have hsingle := single "" item ""
  rwa [String.empty_append, String.append_empty] at hsingle

theorem behind (before : String) (h : InOrder items text) : InOrder items (before ++ text) := by
  cases items with
  | nil => trivial
  | cons item rest =>
      obtain ⟨start, after, rfl, hrest⟩ := h
      exact ⟨before ++ start, after, by simp only [String.append_assoc], hrest⟩

theorem append (h : InOrder items text) (h' : InOrder items' text') :
    InOrder (items ++ items') (text ++ text') := by
  induction items generalizing text with
  | nil => exact h'.behind text
  | cons item rest ih =>
      obtain ⟨before, after, rfl, hrest⟩ := h
      exact ⟨before, after ++ text', by simp only [String.append_assoc], ih hrest⟩

theorem within (before after : String) (h : InOrder items text) :
    InOrder items (before ++ text ++ after) := by
  have hafter : InOrder [] after := trivial
  have happend := (h.behind before).append hafter
  rwa [List.append_nil] at happend

theorem intercalate (separator : String) (items : List String) :
    InOrder items (separator.intercalate items) := by
  induction items with
  | nil => trivial
  | cons item rest ih =>
      cases rest with
      | nil => exact self item
      | cons next rest =>
          rw [String.intercalate_cons_cons]
          exact ⟨"", separator ++ separator.intercalate (next :: rest), by
            simp only [String.empty_append, String.append_assoc], ih.behind separator⟩

end Text.InOrder

/-! ### Numbered sockets -/

/-- Numbered sockets that a kind reads: the word in front of the numbers of its values, with the
level that it asks for and the default, whether each number has a body too, and how many numbers it
reads. -/
structure Numbering where
  word : String
  required : Precedence
  fallback : String
  hasBodies : Bool
  count : Nat
  deriving DecidableEq

namespace Numbering

def texts (n : Node) : Numbering := ⟨"ADD", .loosest, "", false, countSockets n "ADD"⟩

def items (n : Node) : Numbering := ⟨"ADD", .comma, "0", false, countSockets n "ADD"⟩

def arms (n : Node) : Numbering := ⟨"IF", .loosest, "false", true, max 1 (countSockets n "IF")⟩

def arguments (n : Node) : Numbering := ⟨"ARG", .comma, "0", false, countSockets n "ARG"⟩

end Numbering

/-- The numbered sockets that the kind of a node reads, unless a variant declares them. -/
def Node.numbering? (n : Node) : Option Numbering :=
  match n.kind with
  | "text_join" => some (.texts n)
  | "array_create_with" => some (.items n)
  | "controls_if" => if n.variant = none then some (.arms n) else none
  | "procedures_callnoreturn" | "procedures_callreturn" =>
      if n.variant = none then some (.arguments n) else none
  | _ => none

namespace Numbering

variable {s : Numbering} {w : Workspace} {n : Node} {past past' : List Entry}

/-- The texts that come from the sockets with a number, as the journal has them. -/
def PartTold (s : Numbering) (w : Workspace) (n : Node) (past : List Entry) (i : Nat)
    (texts : List String) : Prop :=
  ∃ e, w.ValueTold past (n.child? (s.word ++ toString i)) s.required s.fallback e ∧
    if s.hasBodies then
      ∃ code, w.ChainTold past (n.head? ("DO" ++ toString i)) code ∧
        texts = [e.text, Text.leadLines "  " code]
    else texts = [e.text]

/-- All texts that come from the numbered sockets stand in some code, in the order of their
numbers. -/
def Told (s : Numbering) (w : Workspace) (n : Node) (past : List Entry) (code : Code) : Prop :=
  ∃ parts, List.Forall₂ (s.PartTold w n past) (List.range s.count) parts ∧
    Text.InOrder parts.flatten code.text

def PieceTold (s : Numbering) (w : Workspace) (n : Node) (past : List Entry) (i : Nat)
    (piece : String) : Prop :=
  ∃ texts, s.PartTold w n past i texts ∧ Text.InOrder texts piece

theorem PartTold.mono {i : Nat} {texts : List String} (h : s.PartTold w n past i texts)
    (hsub : past ⊆ past') : s.PartTold w n past' i texts := by
  obtain ⟨e, he, htexts⟩ := h
  refine ⟨e, he.mono hsub, ?_⟩
  split at htexts
  next hbodies =>
      obtain ⟨code, hcode, htexts⟩ := htexts
      rw [if_pos hbodies]
      exact ⟨code, hcode.mono hsub, htexts⟩
  next hbodies => rwa [if_neg hbodies]

theorem lasting_told (s : Numbering) (w : Workspace) (n : Node) : Lasting (s.Told w n) := by
  rintro past past' code hsub ⟨parts, hparts, horder⟩
  exact ⟨parts, hparts.imp fun _ _ h => h.mono hsub, horder⟩

end Numbering

/-! ### Recipes that read them -/

section Recipes

variable {w : Workspace} {n : Node} {s : Numbering}

/-- The value in the socket with a number. -/
theorem Numbering.partTold_value (hbodies : s.hasBodies = false) {past : List Entry} {i : Nat}
    {e : Expression}
    (he : w.ValueTold past (n.child? (s.word ++ toString i)) s.required s.fallback e) :
    s.PartTold w n past i [e.text] := by
  refine ⟨e, he, ?_⟩
  rw [hbodies]
  rfl

theorem Block.tells_indexedSockets (hbodies : s.hasBodies = false) (past : List Entry) :
    (indexedSockets n s.word s.count s.required s.fallback).Tells w (fun _ _ => True)
      (fun past values => List.Forall₂ (fun i text => s.PartTold w n past i [text])
        (List.range s.count) values) past := by
  refine tells_mapM (fun i past past' text hsub h => h.mono hsub) (fun i _ past => ?_) past
  exact fun past' e _ he => Numbering.partTold_value hbodies he

end Recipes

/-! ### The standard kinds -/

/-- The statement sockets that a kind with numbered sockets reads. Bodies with numbers may be
followed by one more for all other cases. -/
def Numbering.statements (s : Numbering) : List String :=
  if s.hasBodies then numbered "DO" s.count ++ ["ELSE"] else []

/-- The nodes that the recipe of a node asks for. A kind without numbered sockets may ask for
everything that hangs in its sockets. -/
def Node.asked (n : Node) : List NodeId :=
  match n.numbering? with
  | some s => (numbered s.word s.count).filterMap n.child? ++ s.statements.filterMap n.head?
  | none => n.children ++ n.heads

section Standard

variable {w : Workspace} {n : Node} {b : Block}

end Standard

/-! ### Sockets by their names -/

section Lookup

variable {α : Type} {l : List α} {target : α → Option NodeId} {a : α} {id : NodeId}

end Lookup

namespace Node

variable {n : Node} {s : Numbering} {id : NodeId} {i : Nat}

end Node

end BlockSketch
