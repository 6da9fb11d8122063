import Mathlib.Data.List.Forall2
import WidthCheck.Proofs.Lowering.Expression

/-!
# The casts of an expression

Walking an expression records its casts, each once and a call before what is written in it, and
nothing else. The walk comes upon parts of an expression more often than that, when it reads the
destination of a cast and when it infers the types of arguments; neither adds to the unit.
-/

namespace WidthCheck

/-! ## Steps that add entities -/

namespace CompilationUnit

/-- A unit with entities after those it has. -/
def addEntities (unit : CompilationUnit) (entities : List Entity) : CompilationUnit :=
  { unit with entities := unit.entities ++ entities.toArray }

theorem addEntities_nil (unit : CompilationUnit) : unit.addEntities [] = unit := by
  simp [addEntities]

theorem addEntities_append (unit : CompilationUnit) (first second : List Entity) :
    unit.addEntities (first ++ second) = (unit.addEntities first).addEntities second := by
  simp [addEntities]

theorem addEntities_singleton (unit : CompilationUnit) (entity : Entity) :
    unit.addEntities [entity] = unit.addEntity entity := by
  simp [addEntities, addEntity]

theorem casts_addEntities_cast (unit : CompilationUnit) (casts : List StaticCast) :
    (unit.addEntities (casts.map .cast)).casts = unit.casts ++ casts := by
  simp [CompilationUnit.casts, addEntities, List.filterMap_map]

end CompilationUnit

namespace Lowering

variable {α β : Type}

/-- The step adds these entities to the unit, and changes nothing else of it. -/
def Adds (step : Lowering α) (entities : List Entity) : Prop :=
  ∀ s, (step s).2.unit = s.unit.addEntities entities

namespace Adds

variable {first second : List Entity}

theorem of_unit_eq {step : Lowering α} (h : ∀ s, (step s).2.unit = s.unit) : Adds step [] := by
  intro s
  rw [h, CompilationUnit.addEntities_nil]

theorem pure (a : α) : Adds (Pure.pure a : Lowering α) [] := of_unit_eq fun _ => rfl

theorem bind {x : Lowering α} {f : α → Lowering β} (hx : Adds x first)
    (hf : ∀ a, Adds (f a) second) : Adds (x >>= f) (first ++ second) := by
  intro s
  show (f (x s).1 (x s).2).2.unit = _
  rw [hf, hx, CompilationUnit.addEntities_append]

theorem quiet_bind {x : Lowering α} {f : α → Lowering β} (hx : Adds x [])
    (hf : ∀ a, Adds (f a) second) : Adds (x >>= f) second :=
  hx.bind hf

theorem forM {step : Node → Lowering Unit} {entities : Node → List Entity} {nodes : List Node}
    (h : ∀ n ∈ nodes, Adds (step n) (entities n)) :
    Adds (nodes.forM step) (nodes.flatMap entities) := by
  induction nodes with
  | nil => exact pure ()
  | cons n rest ih =>
    obtain ⟨hn, hrest⟩ := List.forall_mem_cons.mp h
    rw [List.flatMap_cons]
    show Adds (step n >>= fun _ => rest.forM step) _
    exact hn.bind fun _ => ih hrest

theorem mapM {step : Node → Lowering β} {nodes : List Node} (h : ∀ n ∈ nodes, Adds (step n) []) :
    Adds (nodes.mapM step) [] := by
  induction nodes with
  | nil => exact pure []
  | cons n rest ih =>
    obtain ⟨hn, hrest⟩ := List.forall_mem_cons.mp h
    rw [List.mapM_cons]
    exact hn.quiet_bind fun _ => (ih hrest).quiet_bind fun _ => pure _

theorem withFrame {x : Lowering α} (h : Adds x first) : Adds (withFrame x) first :=
  fun s => h { s with frames := [] :: s.frames }

theorem addEntity (entity : Entity) : Adds (addEntity entity) [entity] := by
  intro s
  rw [CompilationUnit.addEntities_singleton]
  rfl

end Adds

/-! ## Inferring the type of an expression -/

/-- The walker adds nothing to the unit when it infers the types of expressions. -/
def InfersQuietly (walker : Walker) : Prop :=
  ∀ scope node, node.IsExpression → Adds (walker.infer scope node) []

section

variable {below : Walker} {scope : Scope} {node : Node}

theorem inferCall_quiet (h : node.IsExpression) : Adds (inferCall below scope node) [] := by
  unfold inferCall
  split
  · exact .pure none
  · rename_i callee hcallee
    split
    · rename_i args _ _ hargs
      split
      · split
        · rename_i written hwritten
          have hargs := (h.field hcallee).field hargs
          have hexpression := hargs.of_mem_named (List.mem_of_mem_head? hwritten)
          rw [castDestination_of_isExpression scope hexpression]
          exact .pure _
        · exact .pure none
      · exact .pure none
    · exact .pure none

theorem inferUnary_quiet (hbelow : InfersQuietly below) (h : node.IsExpression) :
    Adds (inferUnary below scope node) [] := by
  unfold inferUnary
  split
  · exact .pure none
  · rename_i argument hargument
    dsimp only
    split
    · exact .pure _
    · split
      · exact (hbelow scope argument (h.field hargument)).quiet_bind fun _ => .pure _
      · exact .pure none

theorem inferNode_quiet (hbelow : InfersQuietly below) (h : node.IsExpression) :
    Adds (inferNode below scope node) [] := by
  have honly : ∀ only, node.named = [only] → Adds (below.infer scope only) [] := by
    intro only hnamed
    exact hbelow scope only (h.of_mem_named (by rw [hnamed]; exact List.mem_singleton_self only))
  unfold inferNode
  split
  case h_7 | h_8 | h_9 =>
    split
    · exact honly _ (by assumption)
    · exact .pure none
  case h_10 => exact .quiet_bind (.of_unit_eq fun _ => rfl) fun _ => .pure _
  case h_11 => exact inferUnary_quiet hbelow h
  case h_12 =>
    split
    · rename_i type htype
      obtain ⟨ty, hty⟩ := lowerDescriptor_of_isExpression scope (h.field htype)
      rw [hty]
      exact .pure _
    · exact .pure none
  case h_13 => exact inferCall_quiet h
  all_goals exact .pure _

end

theorem walker_infersQuietly (levels : Nat) : InfersQuietly (walker levels) := by
  induction levels with
  | zero => exact fun _ _ _ => .of_unit_eq fun _ => rfl
  | succ levels ih => exact fun _ _ h => inferNode_quiet ih h

/-! ## The casts of a tree -/

end Lowering

namespace Source

/-- Whether a callee is the name `static_cast` with template arguments. -/
def isStaticCast (src : Source) (callee : Node) : Bool :=
  callee.kind == .templateFunction && ((callee.field? .name).map src.text).getD "" == "static_cast"

/-- Where a node that is a `static_cast` writes its destination: the first template argument, if
that is a type or a plain name. -/
def castArgument? (src : Source) (node : Node) : Option Node :=
  if node.kind = .callExpression then do
    let function ← node.field? .function
    if src.isStaticCast function.innermostName then
      let args ← function.innermostName.field? .arguments
      args.named.head?.filter (·.kind.isDestination)
    else none
  else none

theorem isDestination_of_castArgument? {src : Source} {node written : Node}
    (h : src.castArgument? node = some written) : written.kind.isDestination = true := by
  unfold castArgument? at h
  split at h
  · obtain ⟨function, -, h⟩ := Option.bind_eq_some_iff.mp h
    split at h
    · obtain ⟨args, -, h⟩ := Option.bind_eq_some_iff.mp h
      exact (Option.filter_eq_some_iff.mp h).2
    · cases h
  · cases h

end Source

namespace Lowering

/-- The cast that a call with this destination is recorded as. -/
def Scope.cast (scope : Scope) (call written : Node) (destination : QualType) : StaticCast where
  destination := destination
  typeLocation := scope.source.location written
  location := scope.source.location call
  context := scope.context

/-- The cast that a node is recorded as, if it is one. -/
def Scope.castAt? (scope : Scope) (node : Node) : Option StaticCast := do
  let written ← scope.source.castArgument? node
  let destination ← scope.destination? written
  return scope.cast node written destination

/-- The casts of a tree, a call before what is written in it. -/
def Scope.castsIn (scope : Scope) (root : Node) : List StaticCast :=
  root.reached.filterMap scope.castAt?

section

variable (scope : Scope)

theorem castsIn_eq (node : Node) :
    scope.castsIn node = (scope.castAt? node).toList ++ node.named.flatMap scope.castsIn := by
  unfold Scope.castsIn
  rw [Node.reached_eq, List.filterMap_cons, List.filterMap_flatMap]
  cases scope.castAt? node <;> rfl

variable {scope} {below : Walker} {node function : Node}

theorem castAt?_eq_none (h : scope.source.castArgument? node = none) :
    scope.castAt? node = none := by
  rw [Scope.castAt?, h]
  rfl

theorem castAt?_of_kind_ne (hkind : node.kind ≠ .callExpression) : scope.castAt? node = none :=
  castAt?_eq_none (if_neg hkind)

theorem castAt?_of_not_isStaticCast
    (hname : ∀ function ∈ node.field? .function,
      scope.source.isStaticCast function.innermostName = false) : scope.castAt? node = none := by
  apply castAt?_eq_none
  rw [Source.castArgument?]
  cases hfunction : node.field? .function with
  | none => simp
  | some function => simp [hname function hfunction]

-- A first argument that is neither a type nor a plain name has no destination either.
theorem castAt?_of_isStaticCast (hkind : node.kind = .callExpression)
    (hfunction : node.field? .function = some function)
    (hname : scope.source.isStaticCast function.innermostName = true) :
    scope.castAt? node =
      ((function.innermostName.field? .arguments).bind (·.named.head?)).bind fun written =>
        (scope.destination? written).map (scope.cast node written) := by
  have hargument : scope.source.castArgument? node =
      ((function.innermostName.field? .arguments).bind (·.named.head?)).filter
        (·.kind.isDestination) := by
    rw [Source.castArgument?, if_pos hkind, hfunction, Option.bind_eq_bind, Option.bind_some,
      if_pos hname]
    cases function.innermostName.field? .arguments <;> rfl
  rw [Scope.castAt?, hargument]
  cases (function.innermostName.field? .arguments).bind (·.named.head?) with
  | none => rfl
  | some written =>
    rw [Option.filter_some, ← isSome_destination? scope, Option.bind_some]
    cases hdestination : scope.destination? written with
    | none => rfl
    | some destination => simp [hdestination]

/-! ## Walking an expression -/

theorem recordCast_adds (args : Option Node) (hargs : ∀ list ∈ args, list.IsExpression) :
    Adds (recordCast below scope node args)
      (((args.bind (·.named.head?)).bind fun written =>
        (scope.destination? written).map (scope.cast node written)).toList.map .cast) := by
  unfold recordCast
  cases hwritten : args.bind (·.named.head?) with
  | none => exact .pure ()
  | some written =>
    obtain ⟨list, hlist, hhead⟩ := Option.bind_eq_some_iff.mp hwritten
    have hexpression := (hargs list hlist).of_mem_named (List.mem_of_mem_head? hhead)
    dsimp only
    rw [castDestination_of_isExpression scope hexpression, pure_bind, Option.bind_some]
    cases scope.destination? written with
    | none => exact .pure ()
    | some destination => exact .addEntity _

theorem templateArgument_quiet (h : node.IsExpression) (visit : Scope → Node → Lowering Unit) :
    Adds (templateArgument visit scope node) [] := by
  unfold templateArgument
  split
  · obtain ⟨ty, hty⟩ := lowerDescriptor_of_isExpression scope h
    rw [hty]
    exact .pure _
  · exact .pure _
  · exact .pure _

theorem recordUse_quiet (hbelow : InfersQuietly below) (name : String)
    (explicit : List (Option QualType)) {args : Option Node}
    (hargs : ∀ list ∈ args, list.IsExpression) :
    Adds (recordUse below scope name explicit args) [] := by
  have htypes : Adds (argumentTypes below scope args) [] := by
    cases args with
    | none => exact .pure []
    | some list => exact .mapM fun n hn => hbelow scope n ((hargs list rfl).of_mem_named hn)
  unfold recordUse
  refine .quiet_bind (.of_unit_eq fun _ => rfl) fun s => ?_
  split
  · exact htypes.quiet_bind fun _ => .of_unit_eq fun _ => rfl
  · exact .pure ()

theorem recordCall_adds (hbelow : InfersQuietly below) (h : node.IsExpression)
    (hkind : node.kind = .callExpression) (hfunction : node.field? .function = some function) :
    Adds (recordCall below scope node function.innermostName)
      ((scope.castAt? node).toList.map .cast) := by
  have hcallee := (h.field hfunction).innermostName
  have hargs : ∀ list ∈ node.field? .arguments, list.IsExpression := fun _ hlist => h.field hlist
  -- Every call to another callee is at most noted as a use of a template.
  have hother : ∀ {step : Lowering Unit},
      scope.source.isStaticCast function.innermostName = false → Adds step [] →
        Adds step ((scope.castAt? node).toList.map .cast) := by
    intro step hname hstep
    rwa [castAt?_of_not_isStaticCast (by simpa [hfunction] using hname)]
  unfold recordCall
  split
  · rename_i htemplate
    dsimp only
    split
    · rename_i hname
      have hcast : scope.source.isStaticCast function.innermostName = true := by
        simp [Source.isStaticCast, htemplate, hname]
      rw [castAt?_of_isStaticCast hkind hfunction hcast]
      exact recordCast_adds _ fun _ hlist => hcallee.field hlist
    · rename_i hname
      have hcast : scope.source.isStaticCast function.innermostName = false := by
        simp [Source.isStaticCast, hname]
      refine hother hcast (.quiet_bind ?_ fun explicit => recordUse_quiet hbelow _ explicit hargs)
      unfold writtenArguments
      split
      · rename_i list hlist
        exact .mapM fun n hn => templateArgument_quiet ((hcallee.field hlist).of_mem_named hn) _
      · exact .pure []
  · rename_i hidentifier
    have hcast : scope.source.isStaticCast function.innermostName = false := by
      simp [Source.isStaticCast, hidentifier]
    exact hother hcast (recordUse_quiet hbelow _ [] hargs)
  · rename_i hne _
    have hcast : scope.source.isStaticCast function.innermostName = false := by
      simp [Source.isStaticCast, beq_eq_false_iff_ne.mpr hne]
    exact hother hcast (.pure ())

theorem visitNode_adds (hinfer : InfersQuietly below) (h : node.IsExpression)
    (hvisit : ∀ n ∈ node.named, Adds (below.visit scope n) ((scope.castsIn n).map .cast)) :
    Adds (visitNode below scope node) ((scope.castsIn node).map .cast) := by
  have hkind := h.not_isDeclaring
  have hnamed : Adds (visitAll below scope node.named)
      ((node.named.flatMap scope.castsIn).map .cast) := by
    rw [List.map_flatMap]
    exact .forM hvisit
  -- Any node but a call only hands the walk on to its children.
  have hother : node.kind ≠ .callExpression →
      ((scope.castsIn node).map Entity.cast) = (node.named.flatMap scope.castsIn).map .cast := by
    intro hne
    rw [castsIn_eq, castAt?_of_kind_ne hne]
    rfl
  unfold visitNode
  split <;> rename_i hnode
  case h_16 =>
    rw [castsIn_eq, List.map_append]
    unfold visitCall
    split
    · rename_i function hfunction
      exact (recordCall_adds hinfer h hnode hfunction).bind fun _ => hnamed
    · rename_i hnone
      rw [castAt?_of_not_isStaticCast (by simp [hnone])]
      exact (Adds.pure ()).bind fun _ => hnamed
  case h_17 =>
    rw [hother (by rw [hnode]; decide)]
    exact hnamed.withFrame
  case h_18 =>
    rw [hother (by assumption)]
    exact hnamed
  all_goals
    rw [hnode] at hkind
    cases hkind

theorem walker_visit_adds {levels : Nat} (h : node.IsExpression) (hheight : node.height ≤ levels) :
    Adds ((walker levels).visit scope node) ((scope.castsIn node).map .cast) := by
  induction levels generalizing node with
  | zero =>
    cases node with
    | mk label children => cases hheight
  | succ levels ih =>
    apply visitNode_adds (walker_infersQuietly levels) h
    intro n hn
    have hlt := Node.height_lt_of_mem_named hn
    exact ih (h.of_mem_named hn) (by omega)

end

/-- A cast is what a node is recorded as. The context is the one in which the node is walked. -/
structure IsCastAt (scope : Scope) (node : Node) (cast : StaticCast) : Prop where
  written : ∃ written, scope.source.castArgument? node = some written ∧
    cast.typeLocation = scope.source.location written ∧
    scope.destination? written = some cast.destination
  location : cast.location = scope.source.location node
  context : cast.context = scope.context

theorem forall₂_isCastAt (scope : Scope) (nodes : List Node) :
    List.Forall₂ (IsCastAt scope) (nodes.filter (scope.source.castArgument? · |>.isSome))
      (nodes.filterMap scope.castAt?) := by
  induction nodes with
  | nil => exact .nil
  | cons node rest ih =>
    cases hwritten : scope.source.castArgument? node with
    | none =>
      rw [List.filter_cons_of_neg (by simp [hwritten]),
        List.filterMap_cons_none (castAt?_eq_none hwritten)]
      exact ih
    | some written =>
      have hsome : (scope.destination? written).isSome = true := by
        rw [isSome_destination?]
        exact Source.isDestination_of_castArgument? hwritten
      obtain ⟨destination, hdestination⟩ := Option.isSome_iff_exists.mp hsome
      have hcast : scope.castAt? node = some (scope.cast node written destination) := by
        simp [Scope.castAt?, hwritten, hdestination]
      rw [List.filter_cons_of_pos (by simp [hwritten]), List.filterMap_cons_some hcast]
      exact .cons ⟨⟨written, hwritten, rfl, hdestination⟩, rfl, rfl⟩ ih

/-- Walking an expression that is not nested too deep adds to the unit just one cast for each
`static_cast` in it, in the order in which they start, and no context. -/
theorem visit_records_casts (scope : Scope) {node : Node} {levels : Nat} (h : node.IsExpression)
    (hheight : node.height ≤ levels) (s : State) :
    ∃ casts : List StaticCast,
      ((walker levels).visit scope node s).2.unit =
        { s.unit with entities := s.unit.entities ++ (casts.map Entity.cast).toArray } ∧
      List.Forall₂ (IsCastAt scope)
        (node.reached.filter (scope.source.castArgument? · |>.isSome)) casts :=
  ⟨scope.castsIn node, walker_visit_adds h hheight s, forall₂_isCastAt scope node.reached⟩

/-! ## A cast inside a cast -/

/-- A destination written as a name of one character. -/
def namedDestination (start : Nat) : Node :=
  .mk { kind := .typeDescriptor, span := ⟨start, start + 1⟩ } [
    .mk { kind := .typeIdentifier, field := some .type, span := ⟨start, start + 1⟩ } []]

/-- The call `static_cast<T>(…)` with this argument, for a `T` of one character. -/
def castCall (field : Option Field) (start stop : Nat) (argument : Node) : Node :=
  .mk { kind := .callExpression, field, span := ⟨start, stop⟩ } [
    .mk { kind := .templateFunction, field := some .function, span := ⟨start, start + 14⟩ } [
      .mk { kind := .identifier, field := some .name, span := ⟨start, start + 11⟩ } [],
      .mk { kind := .other "template_argument_list", field := some .arguments,
            span := ⟨start + 11, start + 14⟩ } [
        .mk { kind := .other "<", span := ⟨start + 11, start + 12⟩, isNamed := false } [],
        namedDestination (start + 12),
        .mk { kind := .other ">", span := ⟨start + 13, start + 14⟩, isNamed := false } []]],
    .mk { kind := .argumentList, field := some .arguments, span := ⟨start + 14, stop⟩ } [
      .mk { kind := .other "(", span := ⟨start + 14, start + 15⟩, isNamed := false } [],
      argument,
      .mk { kind := .other ")", span := ⟨stop - 1, stop⟩, isNamed := false } []]]

/-- The expression `static_cast<A>(static_cast<B>(x))`. -/
def nestedCasts : Node :=
  castCall none 0 33 (castCall none 15 32 (.mk { kind := .identifier, span := ⟨30, 31⟩ } []))

def nestedCastsScope : Scope := { source := .ofString "static_cast<A>(static_cast<B>(x))" }

theorem nestedCasts_isExpression : nestedCasts.IsExpression := by
  unfold Node.IsExpression
  decide

theorem typeLocation_of_forall₂ {scope : Scope} {calls : List Node} {casts : List StaticCast}
    (h : List.Forall₂ (IsCastAt scope) calls casts) :
    casts.map (·.typeLocation) =
      calls.map fun call => (scope.source.castArgument? call).bind scope.source.location := by
  induction h with
  | nil => rfl
  | cons hcast _ ih =>
    obtain ⟨written, hwritten, hlocation, -⟩ := hcast.written
    rw [List.map_cons, List.map_cons, ih, hlocation, hwritten, Option.bind_some]

theorem nestedCasts_recorded :
    nestedCasts.IsExpression ∧ nestedCasts.height ≤ 7 ∧
      ∃ casts : List StaticCast,
        ((walker 7).visit nestedCastsScope nestedCasts {}).2.unit =
          { entities := (casts.map Entity.cast).toArray } ∧
        casts.map (·.typeLocation) = [some ⟨1, 13, 12, 1⟩, some ⟨1, 28, 27, 1⟩] := by
  have hheight : nestedCasts.height ≤ 7 := by decide
  obtain ⟨casts, hunit, hcasts⟩ :=
    visit_records_casts nestedCastsScope nestedCasts_isExpression hheight {}
  refine ⟨nestedCasts_isExpression, hheight, casts, ?_, ?_⟩
  · rw [hunit]
    simp
  · rw [typeLocation_of_forall₂ hcasts]
    decide +kernel

end Lowering

end WidthCheck
