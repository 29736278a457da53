import ContractCalls.Proofs.Files.ImportResolution
import Mathlib.Data.List.Nodup

/-!
Contract: what a crawl reads, apart from who reads it.

Owns:
- `Reads`: the readings of a crawl from places not yet seen and pending paths,
  for any answers;
- the laws that hold for all answers: no place is read twice, every pending path
  is read at its place, and so is everything that a file read imports;
- the converse: readings that hold all they import are those of a crawl from their
  own paths.

The reader, and what it does besides answering, is the business of those who
relate a run of the crawl to `Reads`.
-/

set_option autoImplicit false

namespace ContractCalls.Files

/-- A path that was read, and the imports found there; none if it was skipped. -/
structure Reading where
  path : String
  imports : Option (List String)

/-- The files that the imports of a reading stand for. -/
def Reading.targets (disk : Disk) (reading : Reading) : List String :=
  resolvedImports disk (reading.imports.getD []) reading.path

/-- The readings that were not skipped. -/
def kept (readings : List Reading) : List Reading :=
  readings.filter fun reading => reading.imports.isSome

/-- The paths that were read and not skipped. -/
def listed (readings : List Reading) : List String := (kept readings).map Reading.path

/-- The places that were read. -/
def places (disk : Disk) (readings : List Reading) : List Location :=
  readings.map fun reading => disk.locateText reading.path

/-- The readings of a crawl.  A pending path whose place was seen is passed over;
any other is read, and what it imports is put behind what is pending. -/
inductive Reads (disk : Disk) : List Location → List String → List Reading → Prop where
  | done (unseen : List Location) : Reads disk unseen [] []
  | again {unseen : List Location} {path : String} {later : List String}
      {readings : List Reading} (seen : disk.locateText path ∉ unseen)
      (rest : Reads disk unseen later readings) : Reads disk unseen (path :: later) readings
  | first (reading : Reading) {unseen : List Location} {later : List String}
      {readings : List Reading} (fresh : disk.locateText reading.path ∈ unseen)
      (rest : Reads disk (without unseen (disk.locateText reading.path))
        (later ++ reading.targets disk) readings) :
      Reads disk unseen (reading.path :: later) (reading :: readings)

theorem mem_without_iff (unseen : List Location) (place other : Location) :
    other ∈ without unseen place ↔ other ∈ unseen ∧ other ≠ place := by
  simp [without]

@[simp] theorem listed_nil : listed [] = [] := rfl

@[simp] theorem listed_cons_skipped (path : String) (readings : List Reading) :
    listed (⟨path, none⟩ :: readings) = listed readings := rfl

@[simp] theorem listed_cons_read (path : String) (imports : List String)
    (readings : List Reading) :
    listed (⟨path, some imports⟩ :: readings) = path :: listed readings := rfl

@[simp] theorem targets_skipped (disk : Disk) (path : String) :
    Reading.targets disk ⟨path, none⟩ = [] := rfl

@[simp] theorem places_cons (disk : Disk) (reading : Reading) (readings : List Reading) :
    places disk (reading :: readings) =
      disk.locateText reading.path :: places disk readings := rfl

theorem mem_kept_iff (readings : List Reading) (reading : Reading) :
    reading ∈ kept readings ↔ reading ∈ readings ∧ reading.imports.isSome = true :=
  List.mem_filter

theorem listed_kept (readings : List Reading) : listed (kept readings) = listed readings := by
  rw [listed, kept, kept, List.filter_filter]
  simp only [Bool.and_self]
  rfl

theorem places_kept (disk : Disk) (readings : List Reading) :
    places disk (kept readings) = (listed readings).map disk.locateText := by
  rw [listed, List.map_map]
  rfl

theorem places_listed_sublist (disk : Disk) (readings : List Reading) :
    ((listed readings).map disk.locateText).Sublist (places disk readings) := by
  rw [← places_kept]
  exact List.filter_sublist.map _

theorem nodup_listed {disk : Disk} {readings : List Reading}
    (distinct : (places disk readings).Nodup) : (listed readings).Nodup :=
  (distinct.sublist (places_listed_sublist disk readings)).of_map _

namespace Reads

variable {disk : Disk} {unseen : List Location} {pending : List String}
  {readings : List Reading}

theorem subset_unseen (reads : Reads disk unseen pending readings) :
    ∀ place ∈ places disk readings, place ∈ unseen := by
  induction reads with
  | done => simp [places]
  | again _ _ inductionHypothesis => exact inductionHypothesis
  | first _ fresh _ inductionHypothesis =>
      intro place member
      rcases List.mem_cons.mp member with rfl | later
      · exact fresh
      · exact ((mem_without_iff _ _ _).mp (inductionHypothesis place later)).1

/-- No place is read twice. -/
theorem nodup_places (reads : Reads disk unseen pending readings) :
    (places disk readings).Nodup := by
  induction reads with
  | done => simp [places]
  | again _ _ inductionHypothesis => exact inductionHypothesis
  | first _ _ rest inductionHypothesis =>
      rw [places_cons, List.nodup_cons]
      refine ⟨fun again => ?_, inductionHypothesis⟩
      exact ((mem_without_iff _ _ _).mp (rest.subset_unseen _ again)).2 rfl

/-- Every pending path is read at its place, under some spelling. -/
theorem pending_read (reads : Reads disk unseen pending readings) {path : String}
    (isPending : path ∈ pending) (isUnseen : disk.locateText path ∈ unseen) :
    disk.locateText path ∈ places disk readings := by
  induction reads with
  | done => simp at isPending
  | again seen _ inductionHypothesis =>
      rcases List.mem_cons.mp isPending with rfl | later
      · contradiction
      · exact inductionHypothesis later isUnseen
  | first reading _ _ inductionHypothesis =>
      rw [places_cons, List.mem_cons]
      by_cases same : disk.locateText path = disk.locateText reading.path
      · exact Or.inl same
      · rcases List.mem_cons.mp isPending with rfl | later
        · contradiction
        · exact Or.inr (inductionHypothesis (List.mem_append_left _ later)
            ((mem_without_iff _ _ _).mpr ⟨isUnseen, same⟩))

/-- What a file imports is read too, unless its place was seen before. -/
theorem targets_read (reads : Reads disk unseen pending readings) {reading : Reading}
    (member : reading ∈ readings) {target : String} (isTarget : target ∈ reading.targets disk)
    (isUnseen : disk.locateText target ∈ unseen) :
    disk.locateText target ∈ places disk readings := by
  induction reads with
  | done => simp at member
  | again _ _ inductionHypothesis => exact inductionHypothesis member isUnseen
  | first current _ rest inductionHypothesis =>
      rw [places_cons, List.mem_cons]
      by_cases same : disk.locateText target = disk.locateText current.path
      · exact Or.inl same
      · have stillUnseen := (mem_without_iff _ _ _).mpr ⟨isUnseen, same⟩
        rcases List.mem_cons.mp member with rfl | later
        · exact Or.inr (rest.pending_read (List.mem_append_right _ isTarget) stillUnseen)
        · exact Or.inr (inductionHypothesis later stillUnseen)

theorem of_seen (seen : ∀ path ∈ pending, disk.locateText path ∉ unseen) :
    Reads disk unseen pending [] := by
  induction pending with
  | nil => exact .done unseen
  | cons path later inductionHypothesis =>
      obtain ⟨headSeen, laterSeen⟩ := List.forall_mem_cons.mp seen
      exact .again headSeen (inductionHypothesis laterSeen)

/-- Readings at distinct places that hold all they import are the readings of a
crawl from their own paths. -/
theorem of_closed {behind : List String} (distinct : (places disk readings).Nodup)
    (fresh : ∀ place ∈ places disk readings, place ∈ unseen)
    (closed : ∀ path, (path ∈ behind ∨ ∃ reading ∈ readings, path ∈ reading.targets disk) →
      disk.locateText path ∈ unseen → disk.locateText path ∈ places disk readings) :
    Reads disk unseen (readings.map Reading.path ++ behind) readings := by
  induction readings generalizing unseen behind with
  | nil =>
      refine of_seen fun path member isUnseen => ?_
      have nowhere := closed path (Or.inl member) isUnseen
      simp [places] at nowhere
  | cons reading rest inductionHypothesis =>
      obtain ⟨headFresh, restFresh⟩ := List.forall_mem_cons.mp fresh
      obtain ⟨notAgain, restDistinct⟩ := List.nodup_cons.mp distinct
      rw [List.map_cons, List.cons_append]
      refine .first reading headFresh ?_
      rw [List.append_assoc]
      apply inductionHypothesis restDistinct
      · intro place member
        refine (mem_without_iff _ _ _).mpr ⟨restFresh place member, ?_⟩
        rintro rfl
        exact notAgain member
      · intro path isPending isUnseen
        obtain ⟨wasUnseen, different⟩ := (mem_without_iff _ _ _).mp isUnseen
        have wasPending : path ∈ behind ∨
            ∃ other ∈ reading :: rest, path ∈ other.targets disk := by
          rcases isPending with member | ⟨other, member, isTarget⟩
          · rcases List.mem_append.mp member with early | isTarget
            · exact Or.inl early
            · exact Or.inr ⟨reading, List.mem_cons_self, isTarget⟩
          · exact Or.inr ⟨other, List.mem_cons_of_mem reading member, isTarget⟩
        exact (List.mem_cons.mp (closed path wasPending wasUnseen)).resolve_left different

end Reads

end ContractCalls.Files
