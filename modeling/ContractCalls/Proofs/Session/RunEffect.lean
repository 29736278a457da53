import ContractCalls.Session

/-!
Contract: what one run of a session does to what is collected.

Owns:
- `LoadingRules`: properties that sequences of steps inherit, and the fact that
  loading inherits them from the loading of single paths;
- `OnlyLoads`: actions that leave the collection alone and never fail for want
  of an ancestor order, which loading is made of;
- `RunEffect`: the three ways in which a run ends, each with the collection it
  leaves behind;
- `endingOf`: which of them it is once the inputs are loaded;
- the files that are remembered after a run, which are those that it loaded.

Everything that holds over several runs is derived from `RunEffect`; no other
module opens the steps of a run.
-/

set_option autoImplicit false

namespace ContractCalls.Session

open ContractCalls.Analysis ContractCalls.Files ContractCalls.Solidity

/-- How an action ends from a session, and the session it leaves. -/
def outcome {α : Type} (action : Action α) (session : Session) : Except Failure α × Session :=
  action.run session

section Sequence

variable {α β : Type} {action : Action α} {next : α → Action β} {session after : Session}

theorem outcome_bind (action : Action α) (next : α → Action β) (session : Session) :
    outcome (action >>= next) session =
      match outcome action session with
      | (.ok result, after) => outcome (next result) after
      | (.error failure, after) => (.error failure, after) := by
  show (match outcome action session with
    | (ended, after) => ExceptT.bindCont next ended after) = _
  rcases outcome action session with ⟨failure | result, after⟩
  · rfl
  · rfl

theorem outcome_bind_of_ok {result : α} (ended : outcome action session = (.ok result, after)) :
    outcome (action >>= next) session = outcome (next result) after := by
  rw [outcome_bind, ended]

theorem outcome_bind_of_error {failure : Failure}
    (ended : outcome action session = (.error failure, after)) :
    outcome (action >>= next) session = (.error failure, after) := by
  rw [outcome_bind, ended]

theorem exists_of_outcome_bind {result : β}
    (ended : outcome (action >>= next) session = (.ok result, after)) :
    ∃ value middle, outcome action session = (.ok value, middle) ∧
      outcome (next value) middle = (.ok result, after) := by
  rcases first : outcome action session with ⟨failure | value, middle⟩
  · rw [outcome_bind_of_error first] at ended
    cases ended
  · rw [outcome_bind_of_ok first] at ended
    exact ⟨value, middle, rfl, ended⟩

theorem outcome_get (session : Session) :
    outcome (get : Action Session) session = (.ok session, session) := rfl

theorem outcome_modify (change : Session → Session) (session : Session) :
    outcome (modify change : Action PUnit) session = (.ok ⟨⟩, change session) := rfl

theorem outcome_report (entries : List Log.Entry) (session : Session) :
    outcome (report entries) session =
      (.ok ⟨⟩, { session with log := session.log ++ entries.toArray }) := rfl

end Sequence

/-! ### Loading -/

/-- A property of actions that sequences have if their steps have it, and that holds
of the steps which neither look at the session nor change more than its log. -/
structure LoadingRules (holds : {α : Type} → Action α → Prop) : Prop where
  pure : ∀ {α : Type} (result : α), holds (Pure.pure result : Action α)
  bind : ∀ {α β : Type} {action : Action α} {next : α → Action β}, holds action →
    (∀ result, holds (next result)) → holds (action >>= next)
  throw : ∀ {α : Type} {failure : Failure}, (∀ reason, failure ≠ .linearization reason) →
    holds (MonadExcept.throw failure : Action α)
  report : ∀ entries, holds (report entries)

namespace LoadingRules

variable {α β : Type} {holds : {α : Type} → Action α → Prop}

theorem mapM (rules : LoadingRules holds) {action : α → Action β}
    (each : ∀ item, holds (action item)) (items : List α) : holds (items.mapM action) := by
  induction items with
  | nil =>
      rw [List.mapM_nil]
      exact rules.pure []
  | cons item rest inductionHypothesis =>
      rw [List.mapM_cons]
      refine rules.bind (each item) fun result => rules.bind inductionHypothesis fun results => ?_
      exact rules.pure _

theorem filterM (rules : LoadingRules holds) {keep : α → Action Bool}
    (each : ∀ item, holds (keep item)) (items : List α) : holds (items.filterM keep) := by
  have accumulating : ∀ kept : List α, holds (items.filterAuxM keep kept) := by
    induction items with
    | nil => intro kept; exact rules.pure kept
    | cons item rest inductionHypothesis =>
        intro kept
        exact rules.bind (each item) fun isKept => inductionHypothesis _
  exact rules.bind (accumulating []) fun kept => rules.pure kept.reverse

theorem parseSource (rules : LoadingRules holds) (path : Option String) (content : String) :
    holds (parseSource path content) := by
  unfold Session.parseSource
  split
  next unit _ => exact rules.pure unit
  next =>
    refine rules.bind (rules.report _) fun _ => rules.throw ?_
    intro reason same
    contradiction
  next =>
    refine rules.throw ?_
    intro reason same
    contradiction

theorem importsOf (rules : LoadingRules holds) {disk : Disk}
    (each : ∀ path, holds (unitOf disk path)) (path : String) : holds (importsOf disk path) :=
  rules.bind (each path) fun unit => rules.pure (unit.map SourceUnit.imports)

theorem crawlFrom (rules : LoadingRules holds) {disk : Disk}
    (each : ∀ path, holds (unitOf disk path)) (unseen : List Location) (pending : List String) :
    holds (crawlFrom disk (Session.importsOf disk) Session.report unseen pending) := by
  induction unseen, pending using crawlFrom.induct disk with
  | case1 unseen =>
      rw [Files.crawlFrom]
      exact rules.pure []
  | case2 unseen path later fresh _ remaining afterNone afterSome =>
      rw [Files.crawlFrom, dif_pos fresh]
      refine rules.bind (rules.importsOf each path) fun imports => ?_
      cases imports with
      | none => exact afterNone
      | some imports =>
          refine rules.bind (rules.report _) fun _ => rules.bind (afterSome imports) fun rest => ?_
          exact rules.pure (path :: rest)
  | case3 unseen path later seen inductionHypothesis =>
      rw [Files.crawlFrom, dif_neg seen]
      exact inductionHypothesis

/-- Paths to analyse are found by loading paths, in both ways to find them. -/
theorem pathsToAnalyse (rules : LoadingRules holds) {disk : Disk}
    (each : ∀ path, holds (unitOf disk path)) (options : Options) (inputs : List String) :
    holds (pathsToAnalyse options disk inputs) := by
  unfold Session.pathsToAnalyse
  split
  next => exact rules.crawlFrom each _ _
  next =>
    refine rules.filterM (fun path => ?_) _
    exact rules.bind (each path) fun unit => rules.pure unit.isSome

end LoadingRules

/-- An action that may parse files and write messages, but leaves declarations
and graph alone and does not look at ancestor orders. -/
structure OnlyLoads {α : Type} (action : Action α) : Prop where
  keeps : ∀ session, (outcome action session).2.collection = session.collection
  ordersUnasked : ∀ session failure, (outcome action session).1 ≠ .error (.linearization failure)

namespace OnlyLoads

variable {α β : Type}

theorem pure (result : α) : OnlyLoads (Pure.pure result : Action α) where
  keeps _ := rfl
  ordersUnasked _ _ := by
    intro failed
    contradiction

theorem bind {action : Action α} {next : α → Action β} (first : OnlyLoads action)
    (second : ∀ result, OnlyLoads (next result)) : OnlyLoads (action >>= next) where
  keeps session := by
    have kept := first.keeps session
    rcases ended : outcome action session with ⟨failure | result, after⟩
    · rw [ended] at kept
      rw [outcome_bind_of_error ended]
      exact kept
    · rw [ended] at kept
      rw [outcome_bind_of_ok ended, (second result).keeps after]
      exact kept
  ordersUnasked session failure := by
    have unasked := first.ordersUnasked session failure
    rcases ended : outcome action session with ⟨other | result, after⟩
    · rw [ended] at unasked
      rw [outcome_bind_of_error ended]
      intro failed
      exact unasked (by rw [Except.error.inj failed])
    · rw [outcome_bind_of_ok ended]
      exact (second result).ordersUnasked after failure

theorem throw {failure : Failure} (other : ∀ reason, failure ≠ .linearization reason) :
    OnlyLoads (MonadExcept.throw failure : Action α) where
  keeps _ := rfl
  ordersUnasked _ reason := by
    intro failed
    exact other reason (Except.error.inj failed)

theorem get : OnlyLoads (MonadState.get : Action Session) where
  keeps _ := rfl
  ordersUnasked _ _ := by
    intro failed
    contradiction

theorem modify {change : Session → Session}
    (kept : ∀ session, (change session).collection = session.collection) :
    OnlyLoads (modify change : Action PUnit) where
  keeps session := kept session
  ordersUnasked _ _ := by
    intro failed
    contradiction

theorem rules : LoadingRules OnlyLoads where
  pure := pure
  bind := bind
  throw := throw
  report _ := modify fun _ => rfl

end OnlyLoads

theorem onlyLoads_parseFile (disk : Disk) (path : String) : OnlyLoads (parseFile disk path) := by
  unfold parseFile
  split
  next content _ =>
    refine .bind (OnlyLoads.rules.parseSource (some path) content) fun unit => ?_
    exact .bind (.modify fun _ => rfl) fun _ => .pure (some unit)
  next =>
    refine .throw ?_
    intro reason same
    contradiction
  next =>
    split
    next => exact .bind (OnlyLoads.rules.report _) fun _ => .pure none
    next =>
      refine .throw ?_
      intro reason same
      contradiction

theorem onlyLoads_unitOf (disk : Disk) (path : String) : OnlyLoads (unitOf disk path) := by
  unfold unitOf
  refine .bind .get fun session => ?_
  split
  next unit _ => exact .pure (some unit)
  next => exact onlyLoads_parseFile disk path

theorem onlyLoads_loadUnits (options : Options) (disk : Disk) (inputs : List String) :
    OnlyLoads (loadUnits options disk inputs) := by
  have paths := OnlyLoads.rules.pathsToAnalyse (onlyLoads_unitOf disk) options inputs
  unfold loadUnits
  split
  next => exact OnlyLoads.rules.mapM (OnlyLoads.rules.parseSource none) _
  next => exact .bind paths fun paths => .bind .get fun session => .pure _

/-! ### The end of a run -/

/-- The ways in which a run ends, with the collection it leaves: what was there
before if the inputs are not loaded, what was collected from them if ancestors
are not ordered, and otherwise that with the drawn graph. -/
inductive RunEffect (options : Options) (disk : Disk) (inputs : List String) (session : Session) :
    Except Failure String → Collection → Prop where
  | unloaded {failure : Failure} (other : ∀ reason, failure ≠ .linearization reason) :
      RunEffect options disk inputs session (.error failure) session.collection
  | unordered {units : List SourceUnit} {loaded : Session} {failure : LinearizationFailure}
      (loads : outcome (loadUnits options disk inputs) session = (.ok units, loaded))
      (failed : analyze session.collection options.omitLibraries units = .error failure) :
      RunEffect options disk inputs session (.error (.linearization failure))
        (session.collection.addUnits units)
  | drawn {units : List SourceUnit} {loaded : Session} {analysis : CallAnalysis}
      (loads : outcome (loadUnits options disk inputs) session = (.ok units, loaded))
      (success : analyze session.collection options.omitLibraries units = .ok analysis) :
      RunEffect options disk inputs session (.ok (Dot.document options.scheme analysis.graph))
        { session.collection.addUnits units with graph := analysis.graph }

section Analysing

variable {options : Options} {units : List SourceUnit} {session : Session}

theorem analyseUnits_of_error {failure : LinearizationFailure}
    (failed : analyze session.collection options.omitLibraries units = .error failure) :
    ∃ after, outcome (analyseUnits options units) session =
        (.error (.linearization failure), after) ∧
      after.collection = session.collection.addUnits units := by
  unfold analyseUnits say
  rw [outcome_bind_of_ok (outcome_get session)]
  dsimp only
  rw [outcome_bind_of_ok (outcome_modify _ _), outcome_bind_of_ok (outcome_report _ _),
    outcome_bind_of_ok (outcome_report _ _), failed]
  exact ⟨_, rfl, rfl⟩

theorem analyseUnits_of_ok {analysis : CallAnalysis}
    (success : analyze session.collection options.omitLibraries units = .ok analysis) :
    ∃ after, outcome (analyseUnits options units) session = (.ok (), after) ∧
      after.collection = { session.collection.addUnits units with graph := analysis.graph } := by
  unfold analyseUnits say
  rw [outcome_bind_of_ok (outcome_get session)]
  dsimp only
  rw [outcome_bind_of_ok (outcome_modify _ _), outcome_bind_of_ok (outcome_report _ _),
    outcome_bind_of_ok (outcome_report _ _), success]
  exact ⟨_, rfl, rfl⟩

theorem units_analyseUnits (options : Options) (units : List SourceUnit) (session : Session) :
    (outcome (analyseUnits options units) session).2.units = session.units := by
  unfold analyseUnits say
  rw [outcome_bind_of_ok (outcome_get session)]
  dsimp only
  rw [outcome_bind_of_ok (outcome_modify _ _), outcome_bind_of_ok (outcome_report _ _),
    outcome_bind_of_ok (outcome_report _ _)]
  cases analyze session.collection options.omitLibraries units with
  | error failure => rfl
  | ok analysis => rfl

end Analysing

/-- How a run ends once its inputs are loaded, and the collection it leaves. -/
def endingOf (options : Options) (before : Collection) (units : List SourceUnit) :
    Except Failure String × Collection :=
  match analyze before options.omitLibraries units with
  | .error failure => (.error (.linearization failure), before.addUnits units)
  | .ok analysis =>
    (.ok (Dot.document options.scheme analysis.graph),
      { before.addUnits units with graph := analysis.graph })

section Running

variable {options : Options} {disk : Disk} {inputs : List String} {session loaded : Session}

theorem run_of_nonempty (nonempty : inputs ≠ []) :
    run options disk inputs = (do
      let units ← loadUnits options disk inputs
      analyseUnits options units
      return Dot.document options.scheme (← get).collection.graph) := by
  unfold run
  exact if_neg (mt List.isEmpty_iff.mp nonempty)

/-- A run whose inputs are loaded ends as its units determine. -/
theorem run_of_loads {units : List SourceUnit} (nonempty : inputs ≠ [])
    (loads : outcome (loadUnits options disk inputs) session = (.ok units, loaded)) :
    (outcome (run options disk inputs) session).1 =
        (endingOf options session.collection units).1 ∧
      (outcome (run options disk inputs) session).2.collection =
        (endingOf options session.collection units).2 := by
  have keeps := (onlyLoads_loadUnits options disk inputs).keeps session
  rw [loads] at keeps
  rw [run_of_nonempty nonempty, outcome_bind_of_ok loads]
  unfold endingOf
  -- The units are analysed on top of what was collected before the run.
  cases analysed : analyze session.collection options.omitLibraries units with
  | error failure =>
      obtain ⟨after, ended, left⟩ := analyseUnits_of_error (keeps ▸ analysed)
      rw [outcome_bind_of_error ended, left, keeps]
      exact ⟨rfl, rfl⟩
  | ok analysis =>
      obtain ⟨after, ended, left⟩ := analyseUnits_of_ok (keeps ▸ analysed)
      rw [outcome_bind_of_ok ended]
      have finished : outcome (do
          return Dot.document options.scheme (← get).collection.graph : Action String) after =
            (.ok (Dot.document options.scheme after.collection.graph), after) := rfl
      rw [finished, left, keeps]
      exact ⟨rfl, rfl⟩

/-- A run remembers the files that it loaded. -/
theorem units_run {units : List SourceUnit} (nonempty : inputs ≠ [])
    (loads : outcome (loadUnits options disk inputs) session = (.ok units, loaded)) :
    (outcome (run options disk inputs) session).2.units = loaded.units := by
  have same := units_analyseUnits options units loaded
  rw [run_of_nonempty nonempty, outcome_bind_of_ok loads]
  rcases ended : outcome (analyseUnits options units) loaded with ⟨failure | _, after⟩
  · rw [ended] at same
    rw [outcome_bind_of_error ended]
    exact same
  · rw [ended] at same
    rw [outcome_bind_of_ok ended]
    exact same

/-- A run that succeeds has loaded its inputs. -/
theorem exists_loads_of_run {text : String} {after : Session}
    (ended : outcome (run options disk inputs) session = (.ok text, after)) :
    inputs ≠ [] ∧ ∃ units loaded,
      outcome (loadUnits options disk inputs) session = (.ok units, loaded) := by
  have nonempty : inputs ≠ [] := by
    rintro rfl
    cases ended
  rw [run_of_nonempty nonempty] at ended
  obtain ⟨units, loaded, loads, -⟩ := exists_of_outcome_bind ended
  exact ⟨nonempty, units, loaded, loads⟩

end Running

/-- Every run has one of the effects. -/
theorem run_effect (options : Options) (disk : Disk) (inputs : List String) (session : Session) :
    RunEffect options disk inputs session (outcome (run options disk inputs) session).1
      (outcome (run options disk inputs) session).2.collection := by
  have loading := onlyLoads_loadUnits options disk inputs
  have keeps := loading.keeps session
  have ordersUnasked := loading.ordersUnasked session
  by_cases empty : inputs = []
  · subst empty
    refine .unloaded ?_
    intro reason same
    contradiction
  · rcases loads : outcome (loadUnits options disk inputs) session with ⟨failure | units, loaded⟩
    · rw [loads] at keeps ordersUnasked
      rw [run_of_nonempty empty, outcome_bind_of_error loads, keeps]
      refine .unloaded ?_
      intro reason same
      exact ordersUnasked reason (by rw [same])
    · obtain ⟨sameResult, sameCollection⟩ := run_of_loads empty loads
      rw [sameResult, sameCollection]
      unfold endingOf
      cases analysed : analyze session.collection options.omitLibraries units with
      | error failure => exact .unordered loads analysed
      | ok analysis => exact .drawn loads analysed

end ContractCalls.Session
