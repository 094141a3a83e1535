import Mathlib
import Bytestream.Proofs.Status.Parts
import Bytestream.Proofs.Text.Quoted
import Bytestream.Status.Text

/-!
# Reading a status off its inspection text

The inspection text of a status shows its nested messages as one list in front of its root.  Every
message is quoted, so neither the list nor the root can be imitated by what a message says, and the
list ends where the text says so.  Two statuses with the same inspection text are therefore the
same, however deep they are and whatever their messages are made of.
-/

namespace Bytestream.Status

open Text

/-! ### What is shown -/

/-- The messages that are picked from the nodes are those of the nested failures, each of them
once. -/
theorem nestedMessages_eq (s : Status) : s.nestedMessages = s.contexts := by
  induction s with
  | nested message cause ih =>
      rw [contexts_nested, ← ih]
      simp [nestedMessages, cause?, message?]
  | _ => rfl

theorem inspect_failed (message : String) :
    (failed message).inspect = "Err(" ++ quoted message ++ ")" := by
  have hopen : "Err(" = "Err" ++ "(" := rfl
  rw [inspect, inspectRoot, inspectTuple, commaSeparated, String.intercalate_singleton, hopen]
  simp

theorem inspect_status_cons (message : String) (messages : List String) (root : Root) :
    (Parts.status ⟨message :: messages, root⟩).inspect =
      "Nested([" ++ ", ".intercalate ((message :: messages).map quoted) ++ "], " ++
        root.status.inspect ++ ")" := by
  have hroot : inspectRoot root.status = root.status.inspect := by cases root <;> rfl
  have hopen : "Nested([" = "Nested" ++ "(" ++ "[" := rfl
  have hclose : "], " = "]" ++ ", " := rfl
  rw [Parts.status_cons, inspect, nestedMessages_eq, contexts_nested, Parts.contexts_status,
    rootCause, Parts.rootCause_status, hroot, hopen, hclose]
  simp only [inspectTuple, inspectList, commaSeparated, String.intercalate_cons_cons,
    String.intercalate_singleton, String.append_assoc]

/-! ### What can be told apart -/

theorem toList_inspect_failed (message : String) :
    (failed message).inspect.toList =
      "Err(".toList ++ ((quoted message).toList ++ ")".toList) := by
  rw [inspect_failed, String.toList_append, String.toList_append, List.append_assoc]

theorem selfDelimiting_inspect_root :
    SelfDelimiting fun root : Root => root.status.inspect.toList := by
  intro root root' rest rest' heq
  cases root with
  | ok =>
      cases root' with
      | ok => exact ⟨rfl, List.append_cancel_left heq⟩
      | failed message' =>
          simp only [Root.status, toList_inspect_failed] at heq
          exact absurd (List.head_eq_of_cons_eq heq) (by decide)
  | failed message =>
      cases root' with
      | ok =>
          simp only [Root.status, toList_inspect_failed] at heq
          exact absurd (List.head_eq_of_cons_eq heq) (by decide)
      | failed message' =>
          simp only [Root.status, toList_inspect_failed, List.append_assoc] at heq
          obtain ⟨rfl, hrest⟩ := selfDelimiting_quoted (List.append_cancel_left heq)
          exact ⟨rfl, List.append_cancel_left hrest⟩

/-- Parts with a separator between any two are the first part, and then each of the others behind a
separator. -/
theorem toList_intercalate_cons (separator part : String) (parts : List String) :
    (separator.intercalate (part :: parts)).toList =
      part.toList ++ parts.flatMap fun part => separator.toList ++ part.toList := by
  induction parts generalizing part with
  | nil => simp
  | cons next parts ih =>
      rw [String.intercalate_cons_cons, String.toList_append, String.toList_append, ih,
        List.flatMap_cons]
      simp

/-- The end of a list of quoted messages can be found, and the messages be read off it. -/
theorem quoted_list_append_inj {message message' : String} {messages messages' : List String}
    {rest rest' : List Char}
    (heq : (", ".intercalate ((message :: messages).map quoted)).toList ++ ']' :: rest =
      (", ".intercalate ((message' :: messages').map quoted)).toList ++ ']' :: rest') :
    message :: messages = message' :: messages' ∧ rest = rest' := by
  have hrow : SelfDelimiting fun row : List String =>
      (row.flatMap fun message => ", ".toList ++ (quoted message).toList) ++ [']'] :=
    (selfDelimiting_quoted.prepend ", ".toList).flatMap_append fun _ => ⟨',', rfl, by decide⟩
  rw [List.map_cons, List.map_cons, toList_intercalate_cons, toList_intercalate_cons,
    List.flatMap_map, List.flatMap_map, List.append_assoc, List.append_assoc] at heq
  obtain ⟨rfl, htail⟩ := selfDelimiting_quoted heq
  rw [List.append_cons, List.append_cons _ _ rest'] at htail
  obtain ⟨rfl, hrest⟩ := hrow htail
  exact ⟨rfl, hrest⟩

theorem toList_inspect_status_cons (message : String) (messages : List String) (root : Root) :
    (Parts.status ⟨message :: messages, root⟩).inspect.toList =
      "Nested([".toList ++ ((", ".intercalate ((message :: messages).map quoted)).toList ++
        ']' :: ([',', ' '] ++ (root.status.inspect.toList ++ [')']))) := by
  rw [inspect_status_cons]
  simp

/-- The text of a root does not start like that of a nested failure. -/
theorem inspect_root_ne (root : Root) (rest : List Char) :
    root.status.inspect.toList ≠ "Nested([".toList ++ rest := by
  cases root with
  | ok => exact fun heq => absurd (List.head_eq_of_cons_eq heq) (by decide)
  | failed message =>
      rw [Root.status, toList_inspect_failed]
      exact fun heq => absurd (List.head_eq_of_cons_eq heq) (by decide)

theorem inspect_status_injective : Function.Injective fun p : Parts => p.status.inspect := by
  rintro ⟨messages, root⟩ ⟨messages', root'⟩ hinspect
  have heq := congrArg String.toList hinspect
  cases messages with
  | nil =>
      cases messages' with
      | nil =>
          obtain ⟨rfl, _⟩ := selfDelimiting_inspect_root (congrArg (· ++ []) heq)
          rfl
      | cons message' messages' =>
          rw [toList_inspect_status_cons] at heq
          exact absurd heq (inspect_root_ne root _)
  | cons message messages =>
      cases messages' with
      | nil =>
          rw [toList_inspect_status_cons] at heq
          exact absurd heq.symm (inspect_root_ne root' _)
      | cons message' messages' =>
          rw [toList_inspect_status_cons, toList_inspect_status_cons] at heq
          obtain ⟨hmessages, hrest⟩ := quoted_list_append_inj (List.append_cancel_left heq)
          obtain ⟨rfl, _⟩ := selfDelimiting_inspect_root (List.append_cancel_left hrest)
          rw [hmessages]

/-- Two statuses have the same inspection text exactly if they are the same.  The text of a nested
failure shows the messages of all nodes that have a cause as one list of quoted texts, and then the
root, which is shown like a status that stands alone.  A quoted text is the spellings of its
characters between double quotes: a quote and a backslash behind a backslash, and any other character
as itself or by an escape that belongs to it alone. -/
theorem inspect_identifies :
    (∀ s t : Status, s.inspect = t.inspect ↔ same s t = true) ∧
    (∀ (message : String) (messages : List String) (root : Root),
      (Parts.status ⟨message :: messages, root⟩).inspect =
        "Nested([" ++ ", ".intercalate ((message :: messages).map quoted) ++ "], " ++
          root.status.inspect ++ ")") ∧
    ok.inspect = "Ok" ∧
    (∀ message : String, (failed message).inspect = "Err(" ++ quoted message ++ ")") ∧
    (∀ p : Parts, p.status.nestedMessages = p.messages) ∧
    (∀ text : String, (quoted text).toList = '"' :: (text.toList.flatMap escape ++ ['"'])) ∧
    ∀ c : Char, Spells c (escape c) := by
  refine ⟨?_, inspect_status_cons, rfl, inspect_failed, ?_, toList_quoted, spells_escape⟩
  · intro s t
    obtain ⟨p, rfl⟩ := Parts.status_bijective.surjective s
    obtain ⟨q, rfl⟩ := Parts.status_bijective.surjective t
    rw [same_iff, Parts.status_injective.eq_iff]
    exact inspect_status_injective.eq_iff
  · intro p
    rw [nestedMessages_eq, Parts.contexts_status]

/-- A message that looks like the end of the list does not end it. -/
example :
    (nested "a\"], Ok)" ok).inspect = "Nested([\"a\\\"], Ok)\"], Ok)" := by decide +kernel

end Bytestream.Status
