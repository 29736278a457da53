import ContractCalls.Analysis.Linearization

/-!
Contract: what the merge of several sequences yields, and when it yields
anything.

Owns:
- common orders: lists without repetition that keep every sequence in order;
- soundness: a merged list is a common order of the sequences and holds
  nothing but their names;
- completeness: the merge gets stuck only if there is no common order at all.

Does not own: where the sequences come from.
-/

set_option autoImplicit false

namespace ContractCalls.Analysis.Linearization

/-- A list without repetition that has every sequence as a subsequence. -/
structure IsCommonOrder (sequences : List (List String)) (common : List String) : Prop where
  distinct : common.Nodup
  keeps : ∀ sequence ∈ sequences, sequence.Sublist common

/-! ### One step of a merge -/

theorem isFree_iff (pending : List (List String)) (name : String) :
    isFree pending name = true ↔ ∀ sequence ∈ pending, name ∉ sequence.tail := by
  simp [isFree]

theorem isFree_of_candidate? {pending : List (List String)} {name : String}
    (found : candidate? pending = some name) : isFree pending name = true :=
  List.find?_some found

theorem exists_head_of_candidate? {pending : List (List String)} {name : String}
    (found : candidate? pending = some name) :
    ∃ sequence ∈ pending, sequence.head? = some name :=
  List.mem_filterMap.mp (mem_heads_of_candidate? found)

theorem dropHead_sublist (name : String) (sequence : List String) :
    (dropHead name sequence).Sublist sequence := by
  unfold dropHead
  split
  next => exact List.tail_sublist sequence
  next => exact List.Sublist.refl sequence

theorem not_mem_dropHead {name : String} {sequence : List String}
    (free : name ∉ sequence.tail) : name ∉ dropHead name sequence := by
  cases sequence with
  | nil => simp [dropHead]
  | cons head tail =>
      by_cases same : head = name
      · subst same
        simpa [dropHead] using free
      · have different : name ≠ head := fun equal => same equal.symm
        simpa [dropHead, same, different] using free

theorem sublist_cons_of_dropHead {name : String} {sequence merged : List String}
    (kept : (dropHead name sequence).Sublist merged) : sequence.Sublist (name :: merged) := by
  cases sequence with
  | nil => exact List.nil_sublist _
  | cons head tail =>
      by_cases same : head = name
      · subst same
        have tailKept : tail.Sublist merged := by simpa [dropHead] using kept
        exact tailKept.cons_cons head
      · have wholeKept : (head :: tail).Sublist merged := by simpa [dropHead, same] using kept
        exact wholeKept.cons name

theorem mem_advance_iff (name : String) (pending : List (List String))
    (remaining : List String) :
    remaining ∈ advance name pending ↔ ∃ sequence ∈ pending, dropHead name sequence = remaining :=
  List.mem_map

theorem IsCommonOrder.advance {pending : List (List String)} {common : List String}
    (order : IsCommonOrder pending common) (name : String) :
    IsCommonOrder (advance name pending) common := by
  refine ⟨order.distinct, ?_⟩
  intro remaining member
  obtain ⟨sequence, original, rfl⟩ := (mem_advance_iff name pending remaining).mp member
  exact (dropHead_sublist name sequence).trans (order.keeps sequence original)

/-! ### The equations of the merge -/

theorem merge_of_done {pending : List (List String)} (done : pending.all List.isEmpty = true) :
    merge pending = some [] := by
  rw [merge, if_pos done]

theorem merge_of_stuck {pending : List (List String)}
    (unfinished : ¬pending.all List.isEmpty = true) (stuck : candidate? pending = none) :
    merge pending = none := by
  rw [merge, if_neg unfinished]
  split
  next => rfl
  next name found => rw [stuck] at found; contradiction

theorem merge_of_candidate? {pending : List (List String)} {name : String}
    (unfinished : ¬pending.all List.isEmpty = true) (found : candidate? pending = some name) :
    merge pending = (merge (advance name pending)).map (name :: ·) := by
  rw [merge, if_neg unfinished]
  split
  next none => rw [found] at none; contradiction
  next other foundOther =>
    rw [found] at foundOther
    rw [Option.some.inj foundOther]

/-- The runs of a successful merge: nothing is left, or a name is taken and the
rest is merged. -/
inductive MergesTo : List (List String) → List String → Prop where
  | done {pending : List (List String)} (done : pending.all List.isEmpty = true) :
      MergesTo pending []
  | step {pending : List (List String)} {name : String} {rest : List String}
      (found : candidate? pending = some name) (restMerged : MergesTo (advance name pending) rest) :
      MergesTo pending (name :: rest)

theorem mergesTo_of_merge {pending : List (List String)} {merged : List String}
    (success : merge pending = some merged) : MergesTo pending merged := by
  induction pending using merge.induct generalizing merged with
  | case1 pending done =>
      rw [merge_of_done done] at success
      rw [← Option.some.inj success]
      exact .done done
  | case2 pending unfinished stuck =>
      rw [merge_of_stuck unfinished stuck] at success
      contradiction
  | case3 pending unfinished name found _ inductionHypothesis =>
      rw [merge_of_candidate? unfinished found] at success
      obtain ⟨rest, restMerged, rfl⟩ := Option.map_eq_some_iff.mp success
      exact .step found (inductionHypothesis restMerged)

/-! ### Soundness -/

namespace MergesTo

theorem mem_sequence {pending : List (List String)} {merged : List String}
    (merges : MergesTo pending merged) {name : String} (member : name ∈ merged) :
    ∃ sequence ∈ pending, name ∈ sequence := by
  induction merges with
  | done _ => simp at member
  | @step pending taken rest found _ inductionHypothesis =>
      rcases List.mem_cons.mp member with rfl | memberRest
      · obtain ⟨sequence, present, isHead⟩ := exists_head_of_candidate? found
        exact ⟨sequence, present, List.mem_of_mem_head? isHead⟩
      · obtain ⟨remaining, present, held⟩ := inductionHypothesis memberRest
        obtain ⟨sequence, original, rfl⟩ := (mem_advance_iff taken pending remaining).mp present
        exact ⟨sequence, original, (dropHead_sublist taken sequence).subset held⟩

theorem exists_head {pending : List (List String)} {first : String} {rest : List String}
    (merges : MergesTo pending (first :: rest)) :
    ∃ sequence ∈ pending, sequence.head? = some first := by
  cases merges with
  | step found _ => exact exists_head_of_candidate? found

theorem keeps {pending : List (List String)} {merged : List String}
    (merges : MergesTo pending merged) : ∀ sequence ∈ pending, sequence.Sublist merged := by
  induction merges with
  | done done =>
      intro sequence present
      have empty : sequence = [] := List.isEmpty_iff.mp (List.all_eq_true.mp done sequence present)
      subst empty
      exact List.nil_sublist []
  | @step pending taken rest _ _ inductionHypothesis =>
      intro sequence present
      apply sublist_cons_of_dropHead
      apply inductionHypothesis
      exact (mem_advance_iff taken pending _).mpr ⟨sequence, present, rfl⟩

theorem distinct {pending : List (List String)} {merged : List String}
    (merges : MergesTo pending merged) : merged.Nodup := by
  induction merges with
  | done _ => exact List.nodup_nil
  | @step pending taken rest found restMerged inductionHypothesis =>
      refine List.nodup_cons.mpr ⟨?_, inductionHypothesis⟩
      -- What was taken is in none of the sequences that are left.
      intro again
      obtain ⟨remaining, present, held⟩ := restMerged.mem_sequence again
      obtain ⟨sequence, original, rfl⟩ := (mem_advance_iff taken pending remaining).mp present
      have free := (isFree_iff pending taken).mp (isFree_of_candidate? found)
      exact not_mem_dropHead (free sequence original) held

end MergesTo

theorem isCommonOrder_merge {pending : List (List String)} {merged : List String}
    (success : merge pending = some merged) : IsCommonOrder pending merged :=
  ⟨(mergesTo_of_merge success).distinct, (mergesTo_of_merge success).keeps⟩

theorem mem_merge_iff {pending : List (List String)} {merged : List String}
    (success : merge pending = some merged) (name : String) :
    name ∈ merged ↔ ∃ sequence ∈ pending, name ∈ sequence := by
  constructor
  · exact (mergesTo_of_merge success).mem_sequence
  · rintro ⟨sequence, present, held⟩
    exact ((isCommonOrder_merge success).keeps sequence present).subset held

/-! ### Completeness -/

/-- Sequences with a common order have a head in none of the tails: the name
that the common order puts first among those that are left. -/
theorem exists_free_head {common : List String} {pending : List (List String)}
    (order : IsCommonOrder pending common) (unfinished : ¬pending.all List.isEmpty = true) :
    ∃ name ∈ pending.filterMap List.head?, isFree pending name = true := by
  -- Along the common order: its first name either heads a sequence, and then
  -- no tail can hold it, or it heads none and every sequence fits into the rest.
  induction common with
  | nil =>
      exfalso
      apply unfinished
      apply List.all_eq_true.mpr
      intro sequence present
      rw [List.sublist_nil.mp (order.keeps sequence present)]
      rfl
  | cons first later inductionHypothesis =>
      obtain ⟨notLater, laterDistinct⟩ := List.nodup_cons.mp order.distinct
      by_cases heads : first ∈ pending.filterMap List.head?
      · refine ⟨first, heads, (isFree_iff pending first).mpr ?_⟩
        intro sequence present inTail
        have tailKept : sequence.tail.Sublist later := (order.keeps sequence present).tail
        exact notLater (tailKept.subset inTail)
      · apply inductionHypothesis
        refine ⟨laterDistinct, ?_⟩
        intro sequence present
        have kept := order.keeps sequence present
        cases sequence with
        | nil => exact List.nil_sublist later
        | cons head tail =>
            cases kept with
            | cons _ keptLater => exact keptLater
            | cons_cons _ _ =>
                exact (heads (List.mem_filterMap.mpr ⟨first :: tail, present, rfl⟩)).elim

theorem exists_candidate?_of_isCommonOrder {pending : List (List String)} {common : List String}
    (order : IsCommonOrder pending common) (unfinished : ¬pending.all List.isEmpty = true) :
    ∃ name, candidate? pending = some name := by
  obtain ⟨name, isHead, free⟩ := exists_free_head order unfinished
  have found : (candidate? pending).isSome = true :=
    List.find?_isSome.mpr ⟨name, isHead, free⟩
  exact Option.isSome_iff_exists.mp found

theorem exists_merge_of_isCommonOrder {pending : List (List String)} {common : List String}
    (order : IsCommonOrder pending common) : ∃ merged, merge pending = some merged := by
  induction pending using merge.induct with
  | case1 pending done => exact ⟨[], merge_of_done done⟩
  | case2 pending unfinished stuck =>
      obtain ⟨name, found⟩ := exists_candidate?_of_isCommonOrder order unfinished
      rw [stuck] at found
      contradiction
  | case3 pending unfinished name found _ inductionHypothesis =>
      obtain ⟨rest, restMerged⟩ := inductionHypothesis (order.advance name)
      refine ⟨name :: rest, ?_⟩
      rw [merge_of_candidate? unfinished found, restMerged]
      rfl

/-- The merge gives up exactly if there is no common order. -/
theorem merge_eq_none_iff (pending : List (List String)) :
    merge pending = none ↔ ¬∃ common, IsCommonOrder pending common := by
  constructor
  · rintro stuck ⟨common, order⟩
    obtain ⟨merged, success⟩ := exists_merge_of_isCommonOrder order
    rw [stuck] at success
    contradiction
  · intro noOrder
    cases success : merge pending with
    | none => rfl
    | some merged => exact absurd ⟨merged, isCommonOrder_merge success⟩ noOrder

end ContractCalls.Analysis.Linearization
