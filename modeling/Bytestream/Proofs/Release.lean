import Mathlib
import Bytestream.DecodeError.Release
import Bytestream.Proofs.DecodeError.Layers
import Bytestream.Proofs.Status.Parts
import Bytestream.Status.Release
import Bytestream.Status.Text

/-!
# Releasing a chain

A chain of any depth is released in a loop that goes down from node to node, takes out of each node
the chain below it, and lets go of what is left, a shell with a leaf for filler in it.  A shell is
released in the same way as a whole chain, but there is only the one leaf to be taken out of it.  So
the calls that release a chain nest three deep at most: the chain, a shell, and a leaf.

Statuses and decode errors are released alike.  What the loop needs of a type of chains is named by
`Linkage`, and everything about releasing is proved from that.
-/

namespace Bytestream

variable {α : Type}

/-- From what has been taken out last, the loop goes on to let go of these in order, and then ends. -/
inductive Unlinks (detach : α → Option α × α) : Option α → List α → Prop
  | ended : Unlinks detach none []
  | turn {s : α} {rest : List α} (hrest : Unlinks detach (detach s).1 rest) :
      Unlinks detach (some s) ((detach s).2 :: rest)

/-- If each call makes another one for whatever it hands on, at most `bound` of them are open at the
same time. -/
def NestsWithin (handedOn : α → List α) : (bound : Nat) → α → Prop
  | 0, _ => False
  | bound + 1, s => ∀ inner ∈ handedOn s, NestsWithin handedOn bound inner

theorem NestsWithin.succ {handedOn : α → List α} {bound : Nat} {s : α}
    (hnests : NestsWithin handedOn bound s) : NestsWithin handedOn (bound + 1) s := by
  induction bound generalizing s with
  | zero => cases hnests
  | succ bound ih =>
      intro inner hinner
      exact ih (hnests inner hinner)

/-- A type of chains that are taken apart node by node. -/
structure Linkage (α : Type) where
  /-- The chain below the node on top. -/
  inner? : α → Option α
  /-- The chains that begin at each node, from the top down. -/
  nodes : α → List α
  root : α → α
  text? : α → Option String
  /-- Takes out the chain below the node on top, and leaves the node as a shell. -/
  detach : α → Option α × α
  /-- What the loop lets go of before the node on top. -/
  released : α → List α
  nodes_eq : ∀ s, nodes s = s :: (inner? s).elim [] nodes
  getLast?_nodes : ∀ s, (nodes s).getLast? = some (root s)
  inner?_root : ∀ s, inner? (root s) = none
  fst_detach : ∀ s, (detach s).1 = inner? s
  snd_detach_of_leaf : ∀ s, inner? s = none → (detach s).2 = s
  text?_snd_detach : ∀ s, text? (detach s).2 = text? s
  inner?_filler : ∀ s filler, inner? (detach s).2 = some filler → inner? filler = none
  unlinks_released : ∀ s, Unlinks detach (detach s).1 (released s)

namespace Linkage

variable (link : Linkage α)

/-- What is left of the node on top. -/
def shell (s : α) : α :=
  (link.detach s).2

/-- What is released while the chain is: the shells below the one on top, and at last its filler. -/
def handedOn (s : α) : List α :=
  link.released s ++ (link.inner? (link.shell s)).toList

/-- The loop goes through the nodes from where it is, and makes a shell of each. -/
theorem eq_of_unlinks {next? : Option α} {list : List α} (hlist : Unlinks link.detach next? list) :
    list = (next?.elim [] link.nodes).map link.shell := by
  induction hlist with
  | ended => rfl
  | @turn s rest hrest ih =>
      rw [Option.elim_some, link.nodes_eq, List.map_cons, ih, link.fst_detach]
      rfl

/-- The shells of the nodes below the one on top are let go of, from the second to the last. -/
theorem released_eq (s : α) : link.released s = (link.nodes s).tail.map link.shell := by
  rw [link.eq_of_unlinks (link.unlinks_released s), link.fst_detach, link.nodes_eq s,
    List.tail_cons]

theorem shell_cons_released (s : α) :
    link.shell s :: link.released s = (link.nodes s).map link.shell := by
  rw [link.released_eq, link.nodes_eq s]
  rfl

theorem length_released (s : α) : (link.released s).length = (link.nodes s).length - 1 := by
  rw [link.released_eq, List.length_map, List.length_tail]

/-- The shells keep the texts. -/
theorem filterMap_text?_shells (s : α) :
    (link.shell s :: link.released s).filterMap link.text? =
      (link.nodes s).filterMap link.text? := by
  rw [link.shell_cons_released, List.filterMap_map]
  exact List.filterMap_congr fun node _ => link.text?_snd_detach node

theorem getLast?_released {s : α} (hdepth : 2 ≤ (link.nodes s).length) :
    (link.released s).getLast? = some (link.root s) := by
  -- Nothing is taken out of the root, so its shell is the root itself.
  have hroot : link.shell (link.root s) = link.root s :=
    link.snd_detach_of_leaf _ (link.inner?_root s)
  rw [link.released_eq, List.getLast?_map, List.getLast?_tail, if_neg (by omega),
    link.getLast?_nodes, Option.map_some, hroot]

/-! ### Shells and leaves -/

theorem nodes_of_leaf {s : α} (hleaf : link.inner? s = none) : link.nodes s = [s] := by
  rw [link.nodes_eq, hleaf]
  rfl

theorem released_of_leaf {s : α} (hleaf : link.inner? s = none) : link.released s = [] := by
  rw [link.released_eq, link.nodes_of_leaf hleaf]
  rfl

/-- Only the filler is taken out of a shell. -/
theorem released_shell (s : α) :
    link.released (link.shell s) = (link.inner? (link.shell s)).toList := by
  rw [link.released_eq, link.nodes_eq, List.tail_cons]
  cases hfiller : link.inner? (link.shell s) with
  | none => rfl
  | some filler =>
      have hleaf := link.inner?_filler s filler hfiller
      have hshell : link.shell filler = filler := link.snd_detach_of_leaf filler hleaf
      rw [Option.elim_some, link.nodes_of_leaf hleaf, List.map_singleton, hshell]
      rfl

theorem length_nodes_shell_le (s : α) : (link.nodes (link.shell s)).length ≤ 2 := by
  rw [link.nodes_eq]
  cases hfiller : link.inner? (link.shell s) with
  | none => simp
  | some filler => simp [link.nodes_of_leaf (link.inner?_filler s filler hfiller)]

theorem leaf_of_mem_handedOn_shell {s leaf : α} (hleaf : leaf ∈ link.handedOn (link.shell s)) :
    link.inner? leaf = none := by
  rw [handedOn, List.mem_append, link.released_shell, Option.mem_toList, Option.mem_toList] at hleaf
  rcases hleaf with htaken | hfiller
  · exact link.inner?_filler s leaf htaken
  · exact link.inner?_filler (link.shell s) leaf hfiller

/-- Whatever is let go of is a shell, and the same loop takes a leaf out of it or nothing. -/
theorem of_mem_shells {s node : α} (hnode : node ∈ link.shell s :: link.released s) :
    (link.nodes node).length ≤ 2 ∧ (link.released node).length ≤ 1 ∧
      ∀ leaf ∈ link.released node, link.inner? leaf = none := by
  rw [link.shell_cons_released, List.mem_map] at hnode
  obtain ⟨node, _, rfl⟩ := hnode
  have hdepth := link.length_nodes_shell_le node
  refine ⟨hdepth, ?_, ?_⟩
  · rw [link.length_released]
    omega
  · intro leaf hleaf
    exact link.leaf_of_mem_handedOn_shell (List.mem_append_left _ hleaf)

/-! ### Calls within calls -/

theorem nestsWithin_leaf {leaf : α} (hleaf : link.inner? leaf = none) :
    NestsWithin link.handedOn 1 leaf := by
  have hshell : link.shell leaf = leaf := link.snd_detach_of_leaf leaf hleaf
  intro inner hinner
  rw [handedOn, link.released_of_leaf hleaf, hshell, hleaf] at hinner
  cases hinner

theorem nestsWithin_shell (s : α) : NestsWithin link.handedOn 2 (link.shell s) := by
  intro leaf hleaf
  exact link.nestsWithin_leaf (link.leaf_of_mem_handedOn_shell hleaf)

/-- However long the chain is, what it hands on are shells and a leaf. -/
theorem nestsWithin (s : α) : NestsWithin link.handedOn 3 s := by
  intro inner hinner
  rw [handedOn, List.mem_append, link.released_eq, List.mem_map, Option.mem_toList] at hinner
  rcases hinner with ⟨node, _, rfl⟩ | hfiller
  · exact link.nestsWithin_shell node
  · exact (link.nestsWithin_leaf (link.inner?_filler s inner hfiller)).succ

/-- Calls that went from each node to the one below it would nest as deep as the chain. -/
theorem nestsWithin_inner_iff (bound : Nat) (s : α) :
    NestsWithin (fun s => (link.inner? s).toList) bound s ↔ (link.nodes s).length ≤ bound := by
  induction bound generalizing s with
  | zero => simp [NestsWithin, link.nodes_eq s]
  | succ bound ih =>
      rw [NestsWithin, link.nodes_eq s, List.length_cons, Nat.add_le_add_iff_right]
      cases link.inner? s with
      | none => simp
      | some inner => simp [ih]

end Linkage

/-! ### Statuses and decode errors -/

/-- The loop over a status comes to its end. -/
theorem Status.unlinks_released (s : Status) : Unlinks detach s.detach.1 s.released := by
  rw [released]
  induction s with
  | nested message cause ih =>
      rw [detach, releaseFrom]
      exact .turn ih
  | _ =>
      change Unlinks detach none (releaseFrom none)
      rw [releaseFrom]
      exact .ended

/-- A status that has lost its cause has a success in its place. -/
theorem Status.handedOn_eq (s : Status) :
    s.handedOn = s.released ++ s.cause?.toList.map (fun _ => ok) := by
  cases s <;> rfl

/-- How statuses are taken apart. -/
def Status.linkage : Linkage Status where
  inner? := cause?
  nodes := nodes
  root := rootCause
  text? := message?
  detach := detach
  released := released
  nodes_eq s := by cases s <;> simp [cause?]
  getLast?_nodes := getLast?_nodes
  inner?_root := cause?_rootCause
  fst_detach s := by cases s <;> rfl
  snd_detach_of_leaf s hleaf := by
    cases s with
    | nested message cause => cases hleaf
    | _ => rfl
  text?_snd_detach s := by cases s <;> rfl
  inner?_filler s filler hfiller := by
    cases s with
    | nested message cause =>
        cases hfiller
        rfl
    | _ => cases hfiller
  unlinks_released := unlinks_released

/-- The loop over an error comes to its end. -/
theorem DecodeError.unlinks_released (e : DecodeError) : Unlinks detach e.detach.1 e.released := by
  rw [released]
  induction e with
  | nested context e ih =>
      rw [detach, releaseFrom]
      exact .turn ih
  | _ =>
      change Unlinks detach none (releaseFrom none)
      rw [releaseFrom]
      exact .ended

/-- An error that has lost its source has a cause of no meaning in its place. -/
theorem DecodeError.handedOn_eq (e : DecodeError) :
    e.handedOn = e.released ++ e.source?.toList.map (fun _ => invalidUtf8 0) := by
  cases e <;> rfl

/-- How decode errors are taken apart. -/
def DecodeError.linkage : Linkage DecodeError where
  inner? := source?
  nodes := sources
  root := root
  text? := context?
  detach := detach
  released := released
  nodes_eq e := by
    cases e with
    | nested context e => exact sources_nested context e
    | _ => exact sources_of_source?_eq_none rfl
  getLast?_nodes := getLast?_sources
  inner?_root := source?_root
  fst_detach e := by cases e <;> rfl
  snd_detach_of_leaf e hleaf := by
    cases e with
    | nested context e => cases hleaf
    | _ => rfl
  text?_snd_detach e := by cases e <;> rfl
  inner?_filler e filler hfiller := by
    cases e with
    | nested context e =>
        cases hfiller
        rfl
    | _ => cases hfiller
  unlinks_released := unlinks_released

/-- A chain is released node by node.  The loop ends, after it has let go of one shell less than the
chain is deep: those of the nodes below the one on top, in order, the last of them being the root as
it was.  Together with the shell on top they have the messages of the chain.  Each of them is at most
two deep, and the same loop takes no more than a leaf out of it.  What a release hands on are these
shells and the leaf that stands in for the chain below the top, so the calls nest three deep at most
however deep the chain is, while calls from each node to the one below it would nest as deep as the
chain.  The same holds of decode errors and their contexts. -/
theorem released_node_by_node :
    (∀ s : Status,
      Unlinks Status.detach s.detach.1 s.released ∧
        s.released.length = s.depth - 1 ∧
        s.released = s.nodes.tail.map (fun node => node.detach.2) ∧
        (s.detach.2 :: s.released).filterMap Status.message? = s.messages ∧
        (2 ≤ s.depth → s.released.getLast? = some s.rootCause) ∧
        (∀ node ∈ s.detach.2 :: s.released,
          node.depth ≤ 2 ∧ node.released.length ≤ 1 ∧ ∀ leaf ∈ node.released, leaf.cause? = none) ∧
        s.handedOn = s.released ++ s.cause?.toList.map (fun _ => Status.ok) ∧
        NestsWithin Status.handedOn 3 s ∧
        ∀ bound, NestsWithin (fun s => s.cause?.toList) bound s ↔ s.depth ≤ bound) ∧
    ∀ e : DecodeError,
      Unlinks DecodeError.detach e.detach.1 e.released ∧
        e.released.length = e.depth - 1 ∧
        e.released = e.sources.tail.map (fun node => node.detach.2) ∧
        (e.detach.2 :: e.released).filterMap DecodeError.context? = e.contexts ∧
        (2 ≤ e.depth → e.released.getLast? = some e.root) ∧
        (∀ node ∈ e.detach.2 :: e.released,
          node.depth ≤ 2 ∧ node.released.length ≤ 1 ∧ ∀ leaf ∈ node.released, leaf.source? = none) ∧
        e.handedOn = e.released ++ e.source?.toList.map (fun _ => DecodeError.invalidUtf8 0) ∧
        NestsWithin DecodeError.handedOn 3 e ∧
        ∀ bound, NestsWithin (fun e => e.source?.toList) bound e ↔ e.depth ≤ bound := by
  constructor
  · intro s
    exact ⟨s.unlinks_released, Status.linkage.length_released s, Status.linkage.released_eq s,
      Status.linkage.filterMap_text?_shells s,
      fun hdepth => Status.linkage.getLast?_released hdepth,
      fun node hnode => Status.linkage.of_mem_shells hnode, s.handedOn_eq,
      Status.linkage.nestsWithin s,
      fun bound => Status.linkage.nestsWithin_inner_iff bound s⟩
  · intro e
    rw [← e.length_sources, ← e.filterMap_context?_sources]
    refine ⟨e.unlinks_released, DecodeError.linkage.length_released e,
      DecodeError.linkage.released_eq e, DecodeError.linkage.filterMap_text?_shells e,
      fun hdepth => DecodeError.linkage.getLast?_released hdepth, ?_, e.handedOn_eq,
      DecodeError.linkage.nestsWithin e,
      fun bound => DecodeError.linkage.nestsWithin_inner_iff bound e⟩
    intro node hnode
    rw [← node.length_sources]
    exact DecodeError.linkage.of_mem_shells hnode

end Bytestream
