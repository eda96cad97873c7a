import BuildGate.Compiler.Output
import Mathlib.Data.List.Basic

set_option autoImplicit false

namespace BuildGate.Message

open Compiler (Part nest nestAll splitDeeper)

def text : Message → String
  | plain text => text
  | chain text _ => text

def causes : Message → List Message
  | plain _ => []
  | chain _ causes => causes

mutual

def partsAt (depth : Nat) : Message → List Part
  | plain text => [(depth, text)]
  | chain text causes => (depth, text) :: partsAll (depth + 1) causes

def partsAll (depth : Nat) : List Message → List Part
  | [] => []
  | message :: messages => partsAt depth message ++ partsAll depth messages

end

def parts (message : Message) : List Part := partsAll 1 message.causes

mutual

def Full : Message → Prop
  | plain _ => True
  | chain _ causes => causes ≠ [] ∧ AllFull causes

def AllFull : List Message → Prop
  | [] => True
  | message :: messages => message.Full ∧ AllFull messages

end

theorem partsAt_eq (depth : Nat) (message : Message) :
    partsAt depth message = (depth, message.text) :: partsAll (depth + 1) message.causes := by
  cases message <;> rfl

def partText (newline : String) (part : Part) : String := newline ++ indent part.1 ++ part.2

mutual

theorem flattenAt_eq (newline : String) (depth : Nat) (message : Message) :
    flattenAt newline (depth + 1) message =
      String.join ((partsAt (depth + 1) message).map (partText newline)) := by
  cases message with
  | plain text => simp [flattenAt, partsAt, partText, lead]
  | chain text causes =>
    simp [flattenAt, partsAt, partText, lead, flattenAll_eq newline (depth + 1) causes]

theorem flattenAll_eq (newline : String) (depth : Nat) (messages : List Message) :
    flattenAll newline (depth + 1) messages =
      String.join ((partsAll (depth + 1) messages).map (partText newline)) := by
  cases messages with
  | nil => rfl
  | cons message messages =>
    simp [flattenAll, partsAll, flattenAt_eq newline depth message,
      flattenAll_eq newline depth messages]

end

theorem flatten_eq (message : Message) (newline : String) :
    message.flatten newline =
      message.text ++ String.join (message.parts.map (partText newline)) := by
  cases message with
  | plain text => simp [flatten, flattenAt, lead, Message.text, parts, causes, partsAll]
  | chain text causes =>
    simp [flatten, flattenAt, lead, Message.text, parts, Message.causes, flattenAll_eq newline 0]

mutual

theorem le_of_mem_partsAt (depth : Nat) (message : Message) :
    ∀ part ∈ partsAt depth message, depth ≤ part.1 := by
  cases message with
  | plain text => simp [partsAt]
  | chain text causes =>
    have below := le_of_mem_partsAll (depth + 1) causes
    simp only [partsAt, List.forall_mem_cons]
    exact ⟨Nat.le_refl depth, fun part inside => Nat.le_of_succ_le (below part inside)⟩

theorem le_of_mem_partsAll (depth : Nat) (messages : List Message) :
    ∀ part ∈ partsAll depth messages, depth ≤ part.1 := by
  cases messages with
  | nil => simp [partsAll]
  | cons message messages =>
    simp only [partsAll, List.forall_mem_append]
    exact ⟨le_of_mem_partsAt depth message, le_of_mem_partsAll depth messages⟩

end

theorem splitDeeper_partsAll (depth : Nat) (causes messages : List Message) :
    splitDeeper depth (partsAll (depth + 1) causes ++ partsAll depth messages) =
      (partsAll (depth + 1) causes, partsAll depth messages) := by
  have deeper : ∀ part ∈ partsAll (depth + 1) causes, decide (depth < part.1) = true :=
    fun part inside => decide_eq_true (le_of_mem_partsAll (depth + 1) causes part inside)
  rw [splitDeeper, List.takeWhile_append_of_pos deeper, List.dropWhile_append_of_pos deeper]
  cases messages with
  | nil => simp [partsAll]
  | cons message messages => simp [partsAll, partsAt_eq]

theorem assemble_eq {message : Message} (full : message.Full) :
    (if message.causes.isEmpty then plain message.text else chain message.text message.causes) =
      message := by
  cases message with
  | plain text => rfl
  | chain text causes =>
    have some_ : causes.isEmpty = false := List.isEmpty_eq_false_iff.2 full.1
    simp only [Message.causes, some_]
    rfl

mutual

theorem nestAll_causes (depth : Nat) (message : Message) (full : message.Full) :
    nestAll depth (partsAll (depth + 1) message.causes) = message.causes := by
  cases message with
  | plain text => simp [Message.causes, partsAll, nestAll]
  | chain text causes => exact nestAll_partsAll depth causes full.2

theorem nestAll_partsAll (depth : Nat) (messages : List Message) (full : AllFull messages) :
    nestAll depth (partsAll (depth + 1) messages) = messages := by
  cases messages with
  | nil => rw [partsAll, nestAll]
  | cons message messages =>
    -- The first part is the first message's own; cutting at its depth leaves its causes on one
    -- side and the other messages on the other.
    rw [partsAll, partsAt_eq, List.cons_append, nestAll, splitDeeper_partsAll,
      nestAll_causes (depth + 1) message full.1, nestAll_partsAll depth messages full.2,
      assemble_eq full.1]

end

theorem nest_parts {message : Message} (full : message.Full) :
    Compiler.nest message.text message.parts = message := by
  rw [Compiler.nest, parts, nestAll_causes 0 message full]
  cases message with
  | plain text => rfl
  | chain text causes =>
    cases causes with
    | nil => exact absurd rfl full.1
    | cons cause causes => rfl

end BuildGate.Message
