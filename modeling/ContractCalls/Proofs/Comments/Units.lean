import ContractCalls.Analysis.Collection
import ContractCalls.Proofs.Comments.Bodies
import ContractCalls.Solidity.Parse

/-!
Contract: source units read from trees with overlooked comments.

Owns:
- directives, members and contracts, which are the same up to lines and the texts of
  other forms;
- the law for whole trees;
- a comment that a directive takes for the name of a library.
-/

set_option autoImplicit false

namespace ContractCalls.Solidity.FromTree

open ContractCalls.Syntax

/-! ### Directives -/

/-- The type that a directive names; none for all types. -/
def directiveType (type : Node) : Option String :=
  if Text.trim (textOf type).toList == ['*'] then none else some (attachedType type)

/-- A directive for a library and, unless it is for all types, a type. -/
def directiveOf (library : String) (type : Option String) : Option Member :=
  if library.toList.head? = some '\x7b' then none else some (.usingFor library type)

theorem usingForOf?_eq_bind (node : Node) :
    usingForOf? node = (librarySlot? node).bind fun source =>
      directiveOf (Text.compact (textOf source.node))
        ((targetSlot? node).bind fun type => directiveType type.node) := by
  unfold usingForOf? librarySlot? targetSlot?
  rw [Syntax.Tree.findIdx?_children]
  show (Option.map _ (dividerSlot? node)).bind _ = _
  cases dividerSlot? node with
  | none => rfl
  | some divider =>
      simp only [Option.map_some, Option.bind_some, bind, Syntax.Tree.find?_children_between,
        Syntax.Tree.find?_children_drop, Option.bind_map, directiveOf]
      refine congrArg (Option.bind _) (funext fun source => ?_)
      dsimp only [Function.comp]
      by_cases brace : (Text.compact (textOf source.node)).toList.head? = some '\x7b'
      · simp [brace, guard]
      · rw [if_neg brace, guard, if_pos (by simpa using brace)]
        rfl

section Directives

variable {plain commented : Node} (insertion : plain.Insertion commented)

/-- A comment ahead of the divider is behind the library, and one behind the divider is
behind the type. -/
theorem ahead_of_overlooksInDirective {ahead : Syntax.Tree.Child plain → Bool}
    {divider : Syntax.Tree.Child plain} (divides : dividerSlot? plain = some divider)
    (overlooked : overlooksInDirective plain ahead = true) :
    (∃ library, librarySlot? plain = some library ∧ ahead library = true) ∧
        ahead divider = false ∨
      ∃ target, targetSlot? plain = some target ∧ ahead target = true := by
  unfold overlooksInDirective at overlooked
  rw [divides] at overlooked
  simpa [Option.any_eq_true] using overlooked

theorem divider_lt_of_targetSlot? {divider target : Syntax.Tree.Child plain}
    (divides : dividerSlot? plain = some divider) (isTarget : targetSlot? plain = some target) :
    divider.slot < target.slot := by
  unfold targetSlot? at isTarget
  rw [divides, Option.bind_some] at isTarget
  obtain ⟨holds, -⟩ := Syntax.Tree.find?_slots_eq_some_iff.mp isTarget
  exact of_decide_eq_true (Bool.and_eq_true_iff.mp holds).1

theorem librarySlot?_eq
    (overlooked : ∀ child, insertion.IsNew child →
      overlooksInDirective plain (insertion.ahead child) = true) :
    librarySlot? commented = (librarySlot? plain).map insertion.lift := by
  have sameDivider : dividerSlot? commented = (dividerSlot? plain).map insertion.lift :=
    findKind?_eq insertion (by decide)
  cases divides : dividerSlot? plain with
  | none => simp [librarySlot?, sameDivider, divides]
  | some divider =>
      have gaps := fun child isNew =>
        ahead_of_overlooksInDirective divides (overlooked child isNew)
      have behind : ∀ child, insertion.IsNew child →
          plain.slots.any (insertion.ahead child) = true := by
        intro child isNew
        rcases gaps child isNew with ⟨⟨old, -, isAhead⟩, -⟩ | ⟨old, -, isAhead⟩ <;>
          exact List.any_eq_true.mpr ⟨old, Syntax.Tree.mem_slots old, isAhead⟩
      unfold librarySlot? at gaps ⊢
      rw [divides, Option.bind_some] at gaps
      rw [sameDivider, divides, Option.map_some, Option.bind_some, Option.bind_some,
        insertion.find?_slots]
      · simp only [insertion.lift_pos_iff behind, insertion.lift_lt_lift,
          (insertion.lift_shape _).named]
      · intro child isNew holds
        simp only [Bool.and_eq_true, decide_eq_true_eq] at holds
        obtain ⟨⟨-, beforeDivider⟩, -⟩ := holds
        rcases gaps child isNew with
          ⟨⟨library, isLibrary, isAhead⟩, -⟩ | ⟨target, isTarget, isAhead⟩
        · obtain ⟨libraryHolds, -⟩ := Syntax.Tree.find?_slots_eq_some_iff.mp isLibrary
          refine ⟨library, ?_, isAhead⟩
          rw [(insertion.lift_shape library).named]
          simpa only [insertion.lift_pos_iff behind, insertion.lift_lt_lift] using libraryHolds
        · -- The type is behind the divider, so the comment cannot be ahead of it.
          have later := insertion.lift_lt_lift.mpr (divider_lt_of_targetSlot? divides isTarget)
          exact absurd (later.trans (of_decide_eq_true isAhead)) beforeDivider.asymm

theorem targetSlot?_eq
    (texts : ∀ old, ((dividerSlot? plain).any fun divider => divider.slot < old.slot) = true →
      textOf (insertion.lift old).node = textOf old.node)
    (overlooked : ∀ child, insertion.IsNew child →
      overlooksInDirective plain (insertion.ahead child) = true) :
    targetSlot? commented = (targetSlot? plain).map insertion.lift := by
  have sameDivider : dividerSlot? commented = (dividerSlot? plain).map insertion.lift :=
    findKind?_eq insertion (by decide)
  cases divides : dividerSlot? plain with
  | none => simp [targetSlot?, sameDivider, divides]
  | some divider =>
      have same : ∀ old, (decide ((insertion.lift divider).slot < (insertion.lift old).slot) &&
          (textOf (insertion.lift old).node != "global" &&
            textOf (insertion.lift old).node != ";")) =
          (decide (divider.slot < old.slot) &&
            (textOf old.node != "global" && textOf old.node != ";")) := by
        intro old
        by_cases later : divider.slot < old.slot
        · rw [texts old (by simp [divides, later])]
          simp only [insertion.lift_lt_lift]
        · simp [insertion.lift_lt_lift, later]
      have gaps := fun child isNew =>
        ahead_of_overlooksInDirective divides (overlooked child isNew)
      unfold targetSlot? at gaps ⊢
      rw [divides, Option.bind_some] at gaps
      rw [sameDivider, divides, Option.map_some, Option.bind_some, Option.bind_some,
        insertion.find?_slots]
      · simp only [same]
      · intro child isNew holds
        have behindDivider := of_decide_eq_true (Bool.and_eq_true_iff.mp holds).1
        rcases gaps child isNew with ⟨-, notAhead⟩ | ⟨target, isTarget, isAhead⟩
        · exact absurd behindDivider (of_decide_eq_false notAhead)
        · obtain ⟨targetHolds, -⟩ := Syntax.Tree.find?_slots_eq_some_iff.mp isTarget
          exact ⟨target, (same target).trans targetHolds, isAhead⟩

theorem directiveType_congr {left right : Node} (text : textOf right = textOf left)
    (type : typeName right = typeName left) : directiveType right = directiveType left := by
  unfold directiveType attachedType
  rw [text, type]

theorem usingForOf?_of_commented (alike : Commented .member plain commented)
    (isDirective : plain.kind = "using_directive") : usingForOf? commented = usingForOf? plain := by
  cases alike with
  | intro insertion kind children text path overlooked =>
      have gaps : ∀ child, insertion.IsNew child →
          overlooksInDirective plain (insertion.ahead child) = true := by
        intro child isNew
        simpa [Reading.overlooks, isDirective] using overlooked child isNew
      have texts : ∀ old, Reading.ofChild plain old .member .text = true →
          textOf (insertion.lift old).node = textOf old.node :=
        fun old isRead => (children old .text isRead).text_eq
      have behind : ∀ old,
          ((dividerSlot? plain).any fun divider => divider.slot < old.slot) = true →
            textOf (insertion.lift old).node = textOf old.node :=
        fun old later => texts old (by simp [Reading.ofChild, later])
      rw [usingForOf?_eq_bind, usingForOf?_eq_bind, librarySlot?_eq insertion gaps,
        targetSlot?_eq insertion behind gaps]
      cases isLibrary : librarySlot? plain with
      | none => rfl
      | some library =>
          have sameLibrary := texts library (by simp [Reading.ofChild, isLibrary])
          rw [Option.map_some, Option.bind_some, Option.bind_some, sameLibrary]
          cases isTarget : targetSlot? plain with
          | none => rfl
          | some target =>
              have later : ((dividerSlot? plain).any fun divider =>
                  divider.slot < target.slot) = true := by
                cases divides : dividerSlot? plain with
                | none => simp [targetSlot?, divides] at isTarget
                | some divider =>
                    exact decide_eq_true (divider_lt_of_targetSlot? divides isTarget)
              have sameType := typeName_of_commented
                (children target .type (by simp [Reading.ofChild, isTarget]))
              rw [Option.map_some, Option.bind_some, Option.bind_some,
                directiveType_congr (behind target later) sameType]

end Directives

/-! ### Members -/

/-- What is made of results that are the same up to a change is the same up to a change,
if the making takes the one change to the other. -/
theorem map_make_congr {α β γ δ ε : Type} {left right : Except ε α} {change : α → β}
    {make : α → γ} {after : γ → δ} (makeChanged : β → δ)
    (commutes : ∀ result, after (make result) = makeChanged (change result))
    (same : left.map change = right.map change) :
    (left >>= fun result => pure (make result)).map after =
      (right >>= fun result => pure (make result)).map after := by
  have through : ∀ read : Except ε α, (read >>= fun result => pure (make result)).map after =
      (read.map change).map makeChanged := by
    intro read
    cases read with
    | error failure => rfl
    | ok result => exact congrArg Except.ok (commutes result)
  rw [through, through, same]

theorem nameOf_eq {plain commented : Node} (insertion : plain.Insertion commented)
    (names : ∀ old, nameSlot? plain = some old →
      textOf (insertion.lift old).node = textOf old.node) :
    nameOf commented = nameOf plain := by
  have sameName := nameSlot?_eq insertion
  unfold nameSlot? at sameName names
  unfold nameOf
  rw [sameName]
  cases found : (plain.fieldSlot? "name").or (plain.kindSlot? "identifier") with
  | none => rfl
  | some name => exact congrArg Except.ok (names name found)

/-- A member up to lines and the texts of other forms. -/
def memberUpToTexts (node : Node) : Except Defect (Option Member) :=
  (memberOf? node).map (Option.map Rewriting.bare.onMember)

theorem memberUpToTexts_of_commented {plain commented : Node}
    (alike : Commented .member plain commented) :
    memberUpToTexts commented = memberUpToTexts plain := by
  have sameDirective := usingForOf?_of_commented alike
  cases alike with
  | intro insertion kind children text path overlooked =>
      have sameName := nameOf_eq insertion fun old isName =>
        (children old .text (by simp [Reading.ofChild, isName])).text_eq
      have sameType := declaredType_eq insertion fun old isType =>
        children old .type (by simp [Reading.ofChild, isType])
      have bodies : ∀ old, bodySlot? plain "function_body" = some old →
          Commented .body old.node (insertion.lift old).node :=
        fun old isBody => children old .body (decide_eq_true isBody)
      have sameBody := bodyOf_eq insertion bodies
      have sameCallable := callableOf_eq insertion
        (fun old inHeader => children old .parameters inHeader) bodies
      have sameReceive : (commented.children.any fun child => child.kind == "receive") =
          plain.children.any fun child => child.kind == "receive" :=
        anyKind_eq insertion (by decide)
      unfold memberUpToTexts memberOf?
      rw [kind]
      split
      · rw [sameName, sameType]
      · rw [sameName]
        cases nameOf plain with
        | error failure => rfl
        | ok name =>
            exact map_make_congr (fun callable => some (.function (some name) .function callable))
              (fun _ => rfl) sameCallable
      · exact map_make_congr (fun callable => some (.function none .constructor callable))
          (fun _ => rfl) sameCallable
      · rw [sameReceive]
        exact map_make_congr (fun body => some (.function none _ ⟨[], body⟩)) (fun _ => rfl)
          sameBody
      · rw [sameName]
        cases nameOf plain with
        | error failure => rfl
        | ok name =>
            exact map_make_congr (fun callable => some (.modifier name callable))
              (fun _ => rfl) sameCallable
      · rw [sameName]
      · rw [sameName]
      next isDirective => rw [sameDirective isDirective]
      next => rfl

/-! ### Contracts -/

theorem baseOf_of_commented {plain commented : Node} (alike : Commented .base plain commented) :
    baseOf commented = baseOf plain := by
  cases alike with
  | intro insertion kind children text path overlooked =>
      unfold baseOf
      rw [roleOrFirst_eq insertion overlooked]
      cases found : roleOrFirst plain "ancestor" with
      | error failure => rfl
      | ok ancestor =>
          have sameText := (children ancestor .text
            (decide_eq_true (firstSlot?_of_roleOrFirst found))).text_eq
          simp only [Except.map, sameText]

/-- The members of a contract up to lines and the texts of other forms. -/
def membersUpToTexts (node : Node) : Except Defect (List Member) :=
  gather (fun child => (memberUpToTexts child.node).map Option.toList) node.namedSlots

theorem membersUpToTexts_of_commented {plain commented : Node}
    (alike : Commented .members plain commented) :
    membersUpToTexts commented = membersUpToTexts plain := by
  cases alike with
  | intro insertion kind children text path overlooked =>
      refine gather_namedSlots insertion (fun child isNew => ?_) fun old => ?_
      · unfold memberUpToTexts memberOf?
        rw [isNew.isComment.kind]
        rfl
      · rw [memberUpToTexts_of_commented (children old .member rfl)]

theorem map_members (node : Node) :
    (node.namedSlots.mapM fun child => memberOf? child.node).map
        (fun members => (members.filterMap id).map Rewriting.bare.onMember) =
      membersUpToTexts node := by
  unfold membersUpToTexts gather memberUpToTexts
  rw [← map_mapM, ← map_mapM]
  cases node.namedSlots.mapM fun child => memberOf? child.node with
  | error failure => rfl
  | ok members =>
      refine congrArg Except.ok ?_
      induction members with
      | nil => rfl
      | cons first rest inductionHypothesis =>
          cases first with
          | none => exact inductionHypothesis
          | some member => exact congrArg (_ :: ·) inductionHypothesis

def basesOf (node : Node) : Except Defect (List String) :=
  (node.namedSlots.filter fun child => child.node.kind == "inheritance_specifier").mapM
    fun specifier => baseOf specifier.node

/-- A contract up to lines and the texts of other forms. -/
def contractUpToTexts (kind : ContractKind) (node : Node) : Except Defect Contract := do
  let name ← nameOf node
  let bases ← basesOf node
  let members ← (bodySlot? node "contract_body").elim (.ok []) fun body =>
    membersUpToTexts body.node
  return { name, kind, bases, members }

theorem map_contractOf (kind : ContractKind) (node : Node) :
    (contractOf kind node).map Rewriting.bare.onContract = contractUpToTexts kind node := by
  unfold contractOf contractUpToTexts
  show (nameOf node >>= fun _ => basesOf node >>= _).map _ = _
  cases nameOf node with
  | error failure => rfl
  | ok name =>
      cases basesOf node with
      | error failure => rfl
      | ok bases =>
          unfold bodySlot?
          cases (node.fieldSlot? "body").or (node.kindSlot? "contract_body") with
          | none => rfl
          | some body =>
              rw [Option.elim_some, ← map_members]
              dsimp only [bind, Except.bind]
              cases body.node.namedSlots.mapM fun child => memberOf? child.node <;> rfl

theorem contractUpToTexts_of_commented {plain commented : Node} (kind : ContractKind)
    (alike : Commented .contract plain commented) :
    contractUpToTexts kind commented = contractUpToTexts kind plain := by
  cases alike with
  | intro insertion _ children text path overlooked =>
      have sameName := nameOf_eq insertion fun old isName =>
        (children old .text (decide_eq_true isName)).text_eq
      have sameBases : basesOf commented = basesOf plain := by
        unfold basesOf
        rw [insertion.filter_namedSlots (q := fun kind => kind == "inheritance_specifier")
          (by decide), List.mapM_map]
        refine mapM_congr fun old member => ?_
        exact baseOf_of_commented (children old .base (List.mem_filter.mp member).2)
      unfold contractUpToTexts
      rw [sameName, sameBases, bodySlot?_eq insertion "contract_body" (by decide)]
      cases isBody : bodySlot? plain "contract_body" with
      | none => rfl
      | some body =>
          have sameMembers :=
            membersUpToTexts_of_commented (children body .members (decide_eq_true isBody))
          simp only [Option.map_some, Option.elim_some, sameMembers]

/-! ### Units -/

theorem foldlM_filter {α β ε : Type} {step : β → α → Except ε β} {p : α → Bool} {list : List α}
    (nothing : ∀ each ∈ list, p each = false → ∀ state, step state each = .ok state)
    (start : β) : (list.filter p).foldlM step start = list.foldlM step start := by
  induction list generalizing start with
  | nil => rfl
  | cons first rest inductionHypothesis =>
      have below := inductionHypothesis fun each member =>
        nothing each (List.mem_cons_of_mem _ member)
      cases kept : p first with
      | true =>
          rw [List.filter_cons_of_pos kept, List.foldlM_cons, List.foldlM_cons]
          exact congrArg _ (funext below)
      | false =>
          rw [List.filter_cons_of_neg (by simp [kept]), List.foldlM_cons,
            nothing first List.mem_cons_self kept, below]
          rfl

theorem map_foldlM_congr {α β γ ε : Type} {change : β → γ} {left right : β → α → Except ε β}
    {list : List α}
    (step : ∀ each ∈ list, ∀ {state state' : β}, change state = change state' →
      (left state each).map change = (right state' each).map change)
    {start start' : β} (same : change start = change start') :
    (list.foldlM left start).map change = (list.foldlM right start').map change := by
  induction list generalizing start start' with
  | nil => exact congrArg Except.ok same
  | cons first rest inductionHypothesis =>
      have stepped := step first List.mem_cons_self same
      rw [List.foldlM_cons, List.foldlM_cons]
      rcases leftEnds : left start first with failure | next <;>
        rcases rightEnds : right start' first with other | next' <;>
        rw [leftEnds, rightEnds] at stepped
      · rw [Except.error.inj stepped]
        rfl
      · cases stepped
      · cases stepped
      · exact inductionHypothesis
          (fun each member => step each (List.mem_cons_of_mem _ member)) (Except.ok.inj stepped)

theorem unitOf_eq_foldlM (root : Node) :
    unitOf root = root.namedSlots.foldlM (fun unit child => addTopLevel unit child.node) {} := by
  have named : (root.children.filter fun child => child.named) =
      root.namedSlots.map Syntax.Tree.Child.node := by
    rw [← Syntax.Tree.map_node_slots, List.filter_map]
    rfl
  unfold unitOf
  rw [named, List.foldlM_map]

theorem addTopLevel_comment {node : Node} (comment : node.IsComment) (unit : SourceUnit) :
    addTopLevel unit node = .ok unit := by
  unfold addTopLevel contractKind?
  rw [comment.kind]
  rfl

/-- A contract is added to a unit up to lines and texts as it is to the unit. -/
theorem map_addContract (unit : SourceUnit) (read : Except Defect Contract) :
    (read.map fun contract => { unit with contracts := unit.contracts ++ [contract] }).map
        Rewriting.bare.onUnit =
      (read.map Rewriting.bare.onContract).map fun contract =>
        { Rewriting.bare.onUnit unit with
          contracts := (Rewriting.bare.onUnit unit).contracts ++ [contract] } := by
  cases read with
  | error failure => rfl
  | ok contract => simp [Except.map, Rewriting.onUnit]

theorem addTopLevel_congr {unit unit' : SourceUnit} {plain commented : Node}
    (kind : commented.kind = plain.kind)
    (contracts : (contractKind? plain).isSome = true → Commented .contract plain commented)
    (imports : plain.kind = "import_directive" →
      Lexical.importPath? (textOf commented) = Lexical.importPath? (textOf plain))
    (same : Rewriting.bare.onUnit unit = Rewriting.bare.onUnit unit') :
    (addTopLevel unit commented).map Rewriting.bare.onUnit =
      (addTopLevel unit' plain).map Rewriting.bare.onUnit := by
  have sameKind : contractKind? commented = contractKind? plain := by
    unfold contractKind?
    rw [kind]
  unfold addTopLevel
  rw [sameKind, kind]
  cases isContract : contractKind? plain with
  | some contractKind =>
      have sameContract :=
        contractUpToTexts_of_commented contractKind (contracts (by rw [isContract]; rfl))
      rw [← map_contractOf, ← map_contractOf] at sameContract
      dsimp only
      rw [map_addContract, map_addContract, same, sameContract]
  | none =>
      by_cases isImport : plain.kind = "import_directive"
      · have added : ∀ (before : SourceUnit) (paths : List String),
            Rewriting.bare.onUnit { before with imports := before.imports ++ paths } =
              { Rewriting.bare.onUnit before with
                imports := (Rewriting.bare.onUnit before).imports ++ paths } := fun _ _ => rfl
        simp only [isImport, beq_self_eq_true, if_true, Except.map, imports isImport, added, same]
      · simp only [isImport, beq_iff_eq, if_false, Except.map, same]

/-- A source with comments added where they are overlooked gives the same unit, or the
same defect, apart from lines and the texts of forms that are not looked into. -/
theorem sourceUnit_of_commented {plain commented : Node} (alike : Commented .unit plain commented)
    (path : Option String) :
    (sourceUnit path false commented).map Rewriting.bare.onUnit =
      (sourceUnit path false plain).map Rewriting.bare.onUnit := by
  classical
  cases alike with
  | intro insertion kind children text imported overlooked =>
      have sameUnit : (unitOf commented).map Rewriting.bare.onUnit =
          (unitOf plain).map Rewriting.bare.onUnit := by
        rw [unitOf_eq_foldlM, unitOf_eq_foldlM, Syntax.Tree.namedSlots,
          ← foldlM_filter (p := fun child => decide (∃ old, insertion.lift old = child)),
          filter_old insertion, List.foldlM_map]
        · simp only [(insertion.lift_shape _).named]
          refine map_foldlM_congr (fun old _ unit unit' same => ?_) rfl
          refine addTopLevel_congr (insertion.lift_shape old).kind
            (fun isContract => children old .contract isContract) (fun isImport => ?_) same
          exact (children old .importing (by simp [Reading.ofChild, isImport])).importPath?_eq
        · intro child _ notOld unit
          have isNew : insertion.IsNew child := not_exists.mp (of_decide_eq_false notOld)
          exact addTopLevel_comment isNew.isComment unit
      have through : ∀ root, (sourceUnit path false root).map Rewriting.bare.onUnit =
          ((unitOf root).map Rewriting.bare.onUnit).mapError .unreadable := by
        intro root
        show ((unitOf root).mapError Rejection.unreadable).map _ = _
        cases unitOf root <;> rfl
      rw [through, through, sameUnit]

/-- The syntax tree of a text. -/
def treeOf (text : String) : Node :=
  ((Grammar.tree? text).map (Source.ofString text).read).getD default

def vaultText : String :=
  "contract C\x7busing L for uint;mapping(uint=>I)m;function f(uint a)\x7bm[a].g(h(a));\x7d\x7d"

def vaultTextCommented : String :=
  "/**/contract C\x7busing L/**/for uint;mapping(uint/**/=>I)m;" ++
    "function f(/**/uint a)\x7b/**/m[a/**/].g(/**/h(a));\x7d\x7d"

/-- Comments in a directive, in a type, among parameters and in a call. -/
theorem sourceUnit_of_commented_vault :
    Commented .unit (treeOf vaultText) (treeOf vaultTextCommented) ∧
      (sourceUnit none false (treeOf vaultTextCommented)).map Rewriting.bare.onUnit =
        (sourceUnit none false (treeOf vaultText)).map Rewriting.bare.onUnit ∧
      ((sourceUnit none false (treeOf vaultText)).toOption.map fun unit =>
        unit.contracts.map fun contract => (contract.name, contract.members.length)) =
          some [("C", 3)] := by
  have evaluated : isCommented 20 .unit (treeOf vaultText) (treeOf vaultTextCommented) = true ∧
      ((sourceUnit none false (treeOf vaultText)).toOption.map fun unit =>
        unit.contracts.map fun contract => (contract.name, contract.members.length)) =
          some [("C", 3)] := by
    decide +kernel
  obtain ⟨found, members⟩ := evaluated
  have alike := commented_of_isCommented found
  exact ⟨alike, sourceUnit_of_commented alike none, members⟩

/-- A comment ahead of the library of a directive is taken for the library. -/
theorem sourceUnit_commented_directive :
    Commented .unread (treeOf "contract C \x7b using L for uint; \x7d")
        (treeOf "contract C \x7b using /*c*/ L for uint; \x7d") ∧
      (sourceUnit none false (treeOf "contract C \x7b using /*c*/ L for uint; \x7d")).map
          Rewriting.bare.onUnit ≠
        (sourceUnit none false (treeOf "contract C \x7b using L for uint; \x7d")).map
          Rewriting.bare.onUnit := by
  have found : isCommented 20 .unread (treeOf "contract C \x7b using L for uint; \x7d")
      (treeOf "contract C \x7b using /*c*/ L for uint; \x7d") = true := by
    decide +kernel
  refine ⟨commented_of_isCommented found, fun same => ?_⟩
  have sameLibraries := congrArg (fun read => read.toOption.map fun unit =>
    ((Analysis.Collection.addUnits {} [unit]).declarations.find? "C").map
      (·.librariesFor "uint256")) same
  revert sameLibraries
  decide +kernel

end ContractCalls.Solidity.FromTree
