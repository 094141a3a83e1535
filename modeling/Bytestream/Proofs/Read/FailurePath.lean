import Mathlib
import Bytestream.Proofs.DecodeError.Layers
import Bytestream.Proofs.Decoder.Repetition
import Bytestream.Proofs.Read.Inheritance
import Bytestream.Proofs.Read.Transaction

/-!
# The path to a failure

A read that fails names the way to the read inside it that has failed first.  Each level of the read
adds what was attached to it, the context that was attached last being the outermost, and a vector
adds the number of the element in which the failure lies.  The innermost read on the way, a leaf or
the count of a vector, gives the cause as it is.  Contexts have no other effect: a read succeeds just
as it would without them.
-/

namespace Bytestream

/-! ### Failures without a context -/

namespace Decoder

variable {α β : Type}

/-- Every failure is a cause alone. -/
def Plain (d : Decoder α) : Prop :=
  ∀ ⦃c c' : Cursor⦄ ⦃e : DecodeError⦄, d c = .error e c' → e.contexts = []

theorem Plain.bind {d : Decoder α} {f : α → Decoder β} (hd : Plain d)
    (hf : ∀ value, Plain (f value)) : Plain (d >>= f) := by
  intro c c' e herror
  rcases bind_eq_error_iff.mp herror with hfirst | ⟨value, c₁, _, hsecond⟩
  · exact hd hfirst
  · exact hf value hsecond

theorem Plain.atomically {d : Decoder α} (hd : Plain d) : Plain (atomically d) := by
  intro c c' e herror
  obtain ⟨_, c₁, hfirst⟩ := atomically_eq_error_iff.mp herror
  exact hd hfirst

theorem Takes.plain {d : Decoder α} {count : Nat} {value : List UInt8 → α}
    (hd : Takes d count value) : Plain d := by
  intro c c' e herror
  obtain ⟨_, rfl, _⟩ := hd.eq_error_iff.mp herror
  rfl

theorem plain_pure (value : α) : Plain (pure value : Decoder α) := by
  intro c c' e herror
  cases herror

theorem plain_peek : Plain peek := by
  intro c c' e herror
  simp only [peek] at herror
  split at herror
  · cases herror
  · cases herror
    rfl

theorem plain_congruence : Congruence 0 (fun d _ => Plain d) where
  pure := plain_pure
  overflow := by
    intro α bits start c c' e herror
    cases herror
    rfl
  invalidUtf8 := by
    intro α start c c' e herror
    cases herror
    rfl
  bind := Plain.bind
  offset := fun hf c _ _ herror => hf c.offset herror
  atomically := Plain.atomically
  u8 := takes_u8.plain
  bytes := fun count => (takes_bytes count).plain

end Decoder

open Decoder

namespace Read

/-! ### Reads without their contexts -/

/-- The read without the contexts of any of its levels. -/
def withoutContexts : Read → Read
  | vector element => vector element.withoutContexts
  | context read _ => read.withoutContexts
  | read => read

theorem value_withoutContexts (read : Read) : read.withoutContexts.Value = read.Value := by
  induction read with
  | vector element ih => exact congrArg Array ih
  | context read message ih => exact ih
  | _ => rfl

/-- Elements that succeed alike make vectors that succeed alike. -/
theorem vector_ok_congr {α β : Type} (hvalue : α = β) {element : Decoder α} {element' : Decoder β}
    (helement : ∀ c value c',
      element c = .ok value c' ↔ element' c = .ok (cast hvalue value) c')
    (c : Cursor) (values : Array α) (c' : Cursor) :
    Decoder.vector element c = .ok values c' ↔
      Decoder.vector element' c = .ok (cast (congrArg Array hvalue) values) c' := by
  subst hvalue
  simp only [cast_eq] at helement ⊢
  simp only [vector_eq_ok_iff]
  constructor
  · rintro ⟨count, c₁, hcount, hsize, hvalues⟩
    exact ⟨count, c₁, hcount, hsize, hvalues.imp fun c value c' => (helement c value c').mp⟩
  · rintro ⟨count, c₁, hcount, hsize, hvalues⟩
    exact ⟨count, c₁, hcount, hsize, hvalues.imp fun c value c' => (helement c value c').mpr⟩

theorem ok_withoutContexts_iff (read : Read) (c : Cursor) (value : read.Value) (c' : Cursor) :
    read.decoder c = .ok value c' ↔
      read.withoutContexts.decoder c = .ok (cast read.value_withoutContexts.symm value) c' := by
  induction read generalizing c c' with
  | vector element ih =>
      exact vector_ok_congr element.value_withoutContexts.symm
        (fun c value c' => ih c value c') c value c'
  | context read message ih => exact mapError_eq_ok_iff.trans (ih c value c')
  | _ => exact Iff.rfl

/-! ### Paths -/

/-- Whether a read is made without reading anything that could have a context of its own. -/
def IsLeaf : Read → Prop
  | peek | skip _ | item _ => True
  | vector _ | context _ _ => False

/-- `FailsAlong read c path cause` says that the first failure in the read at `c` is the failure of
its innermost read with `cause`, and that `path` leads there from the outside in. -/
inductive FailsAlong : Read → Cursor → (path : List String) → (cause : DecodeError) → Prop
  /-- A leaf fails. -/
  | leaf {read : Read} {messages : List String} {c c' : Cursor} {cause : DecodeError}
      (hleaf : read.IsLeaf) (hread : read.decoder c = .error cause c') :
      FailsAlong (read.withContexts messages) c messages.reverse cause
  /-- The count of a vector fails. -/
  | count {element : Read} {messages : List String} {c c' : Cursor} {cause : DecodeError}
      (hcount : Varint.u32 c = .error cause c') :
      FailsAlong ((vector element).withContexts messages) c messages.reverse cause
  /-- The count of a vector is read, and behind it so many elements, and the next one fails. -/
  | element {element : Read} {messages path : List String} {c c₁ c₂ : Cursor} {count : UInt32}
      {values : List element.Value} {cause : DecodeError}
      (hcount : Varint.u32 c = .ok count c₁) (hvalues : Repeats element.decoder c₁ values c₂)
      (hlength : values.length < count.toNat) (hnext : FailsAlong element c₂ path cause) :
      FailsAlong ((vector element).withContexts messages) c
        (messages.reverse ++ s!"vector element {values.length} of {count.toNat}" :: path) cause

/-- The contexts of one level are around the error that comes from within, the last one first. -/
theorem withContexts_eq_error_iff {read : Read} {messages : List String} {c c' : Cursor}
    {e : DecodeError} :
    (read.withContexts messages).decoder c = .error e c' ↔
      ∃ e₁, read.decoder c = .error e₁ c' ∧ e = .nestAll messages.reverse e₁ := by
  induction messages generalizing read with
  | nil => simp [withContexts, DecodeError.nestAll]
  | cons message messages ih =>
      have hmessages : ∀ e₁ : DecodeError, DecodeError.nestAll (message :: messages).reverse e₁ =
          .nestAll messages.reverse (e₁.nest message) := by
        intro e₁
        rw [List.reverse_cons, DecodeError.nestAll_append]
        rfl
      refine (@ih (context read message)).trans ?_
      constructor
      · rintro ⟨e₁, herror, rfl⟩
        obtain ⟨e₂, hread, rfl⟩ := mapError_eq_error_iff.mp herror
        exact ⟨e₂, hread, (hmessages e₂).symm⟩
      · rintro ⟨e₂, hread, rfl⟩
        exact ⟨e₂.nest message, mapError_eq_error_iff.mpr ⟨e₂, hread, rfl⟩, hmessages e₂⟩

theorem plain_of_isLeaf {read : Read} (hleaf : read.IsLeaf) : Plain read.decoder := by
  cases read with
  | peek => exact plain_peek
  | skip count => exact (plain_congruence.bytes count).bind fun _ => plain_pure ()
  | item i => exact plain_congruence.item i
  | vector element => cases hleaf
  | context read message => cases hleaf

namespace FailsAlong

variable {read : Read} {c : Cursor} {path : List String} {cause : DecodeError}

theorem contexts_cause (hfails : FailsAlong read c path cause) : cause.contexts = [] := by
  induction hfails with
  | leaf hleaf hread => exact plain_of_isLeaf hleaf hread
  | count hcount => exact plain_congruence.u32 hcount
  | element _ _ _ _ ih => exact ih

/-- Whoever follows a path finds that the read does fail, with the path around the cause. -/
theorem decoder_eq (hfails : FailsAlong read c path cause) :
    read.decoder c = .error (.nestAll path cause) c := by
  induction hfails with
  | @leaf read messages c c' cause hleaf hread =>
      obtain rfl := read.reverts hread
      exact withContexts_eq_error_iff.mpr ⟨cause, hread, rfl⟩
  | @count element messages c c' cause hcount =>
      have hvector : (vector element).decoder c = .error cause c :=
        vector_eq_error_iff.mpr ⟨rfl, Or.inl ⟨c', hcount⟩⟩
      exact withContexts_eq_error_iff.mpr ⟨cause, hvector, rfl⟩
  | @element element messages path c c₁ c₂ count values cause hcount hvalues hlength _ ih =>
      have hvector : (vector element).decoder c =
          .error (.nested s!"vector element {values.length} of {count.toNat}"
            (.nestAll path cause)) c :=
        vector_eq_error_iff.mpr ⟨rfl,
          Or.inr ⟨count, c₁, values, c₂, _, c₂, hcount, hvalues, hlength, ih, rfl⟩⟩
      refine withContexts_eq_error_iff.mpr ⟨_, hvector, ?_⟩
      rw [DecodeError.nestAll_append, DecodeError.nestAll_cons]

theorem of_leaf {messages : List String} {c' : Cursor} {e : DecodeError} (hleaf : read.IsLeaf)
    (herror : (read.withContexts messages).decoder c = .error e c') :
    FailsAlong (read.withContexts messages) c e.contexts e.root := by
  obtain ⟨e₁, hread, rfl⟩ := withContexts_eq_error_iff.mp herror
  obtain ⟨hpath, hroot⟩ := DecodeError.nestAll_cause messages.reverse
    (plain_of_isLeaf hleaf hread)
  rw [hpath, hroot]
  exact .leaf hleaf hread

/-- Every failure has a path.  The induction takes up the contexts of a level one after the other
until it gets to the leaf or the vector that they are attached to. -/
theorem of_error (messages : List String) {c' : Cursor} {e : DecodeError}
    (herror : (read.withContexts messages).decoder c = .error e c') :
    FailsAlong (read.withContexts messages) c e.contexts e.root := by
  induction read generalizing messages c c' e with
  | vector element ih =>
      obtain ⟨e₁, hread, rfl⟩ := withContexts_eq_error_iff.mp herror
      obtain ⟨_, ⟨c₁, hcount⟩ |
        ⟨count, c₁, values, c₂, e₂, c₃, hcount, hvalues, hlength, hnext, rfl⟩⟩ :=
          vector_eq_error_iff.mp hread
      · obtain ⟨hpath, hroot⟩ := DecodeError.nestAll_cause messages.reverse
          (plain_congruence.u32 hcount)
        rw [hpath, hroot]
        exact .count hcount
      · rw [DecodeError.contexts_nestAll, DecodeError.contexts_nested, DecodeError.root_nestAll]
        exact .element hcount hvalues hlength (ih [] hnext)
  | context read message ih => exact ih (message :: messages) herror
  | _ => exact of_leaf trivial herror

end FailsAlong

/-- A read fails exactly if a path leads to a failure inside it: the contexts of its error are the
path, and the root is the error of the innermost read that fails.  Every path to a failure is that of
an error, so there is no more than one, and the depth of the error counts its steps and the root.  A
success is the success of the read without any contexts. -/
theorem failure_path (read : Read) (c : Cursor) :
    (∀ e c', read.decoder c = .error e c' ↔ c' = c ∧ read.FailsAlong c e.contexts e.root) ∧
    (∀ path cause, read.FailsAlong c path cause → ∃ e, read.decoder c = .error e c ∧
      e.contexts = path ∧ e.root = cause ∧ e.depth = path.length + 1) ∧
    ∀ value c', read.decoder c = .ok value c' ↔
      read.withoutContexts.decoder c = .ok (cast read.value_withoutContexts.symm value) c' := by
  refine ⟨?_, ?_, read.ok_withoutContexts_iff c⟩
  · intro e c'
    constructor
    · intro herror
      exact ⟨read.reverts herror, FailsAlong.of_error [] herror⟩
    · rintro ⟨rfl, hfails⟩
      have herror := hfails.decoder_eq
      rwa [e.nestAll_contexts_root] at herror
  · intro path cause hfails
    obtain ⟨hpath, hroot⟩ := DecodeError.nestAll_cause path hfails.contexts_cause
    have hdepth : (DecodeError.nestAll path cause).depth = path.length + 1 :=
      congrArg (fun contexts => contexts.length + 1) hpath
    exact ⟨_, hfails.decoder_eq, hpath, hroot, hdepth⟩

/-- The second of two rows breaks off behind the first of its three bytes. -/
example : ((vector ((vector (item .u8)).withContexts ["row"])).withContexts
      ["table", "section"]).decoder.result (.ofBytes ⟨#[0x02, 0x01, 0x07, 0x03, 0x08]⟩) =
    .error (.nestAll ["section", "table", "vector element 1 of 2", "row", "vector element 1 of 3"]
      (.truncated 5 1 0)) := rfl

end Read

end Bytestream
