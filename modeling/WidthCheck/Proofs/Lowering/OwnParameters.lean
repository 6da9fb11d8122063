import Mathlib.Data.List.Basic
import WidthCheck.Proofs.Lowering.Restores

/-!
# The parameters a function declares

A function that is visited is recorded, and after it the parameters of the list it was given, in
their order. What else is recorded in between comes from the walker below: from types that are
defined in the list, from default values and from the body.
-/

namespace WidthCheck.Lowering

/-! ## Steps that record these entities -/

/-- A way for recorded entities to be among all that were added. -/
structure Among (R : List Entity → List Entity → Prop) : Prop where
  refl : ∀ entities, R entities entities
  append : ∀ {first second first' second' : List Entity}, R first first' → R second second' →
    R (first ++ second) (first' ++ second')

theorem Among.eq : Among (· = ·) :=
  ⟨fun _ => rfl, fun hfirst hsecond => by rw [hfirst, hsecond]⟩

theorem Among.sublist : Among List.Sublist :=
  ⟨List.Sublist.refl, List.Sublist.append⟩

variable {α β : Type} {R : List Entity → List Entity → Prop}

/-- From every state the step has this result, and the entities are among those it adds. -/
def Records (R : List Entity → List Entity → Prop) (step : Lowering α) (result : α)
    (entities : List Entity) : Prop :=
  ∀ s, (step s).1 = result ∧ ∃ added,
    (step s).2.unit.entities.toList = s.unit.entities.toList ++ added ∧ R entities added

/-- Visiting a node records nothing that counts. -/
def VisitRecords (R : List Entity → List Entity → Prop) (visit : Scope → Node → Lowering Unit) :
    Prop :=
  ∀ scope node, Records R (visit scope node) () []

namespace Records

variable (hR : Among R)

include hR

theorem of_entities_eq {step : Lowering α} {result : α} (hresult : ∀ s, (step s).1 = result)
    (h : ∀ s, (step s).2.unit.entities = s.unit.entities) : Records R step result [] := by
  intro s
  refine ⟨hresult s, [], ?_, hR.refl []⟩
  rw [h, List.append_nil]

theorem pure (a : α) : Records R (Pure.pure a) a [] :=
  of_entities_eq hR (fun _ => rfl) fun _ => rfl

theorem bind {x : Lowering α} {f : α → Lowering β} {a : α} {b : β} {first second : List Entity}
    (hx : Records R x a first) (hf : Records R (f a) b second) :
    Records R (x >>= f) b (first ++ second) := by
  intro s
  obtain ⟨rfl, added, hadded, hfirst⟩ := hx s
  obtain ⟨hresult, more, hmore, hsecond⟩ := hf (x s).2
  refine ⟨hresult, added ++ more, ?_, hR.append hfirst hsecond⟩
  rw [bind_run, hmore, hadded, List.append_assoc]

theorem bindQuiet {x : Lowering α} {f : α → Lowering β} {a : α} {b : β} {entities : List Entity}
    (hx : Records R x a entities) (hf : Records R (f a) b []) :
    Records R (x >>= f) b entities := by
  have hbind := bind hR hx hf
  rwa [List.append_nil] at hbind

theorem quietBind {x : Lowering α} {f : α → Lowering β} {a : α} {b : β} {entities : List Entity}
    (hx : Records R x a []) (hf : Records R (f a) b entities) :
    Records R (x >>= f) b entities :=
  bind hR hx hf

omit hR in
theorem thenPure {x : Lowering α} {a : α} {g : α → β} {entities : List Entity}
    (hx : Records R x a entities) :
    Records R (x >>= fun result => Pure.pure (g result)) (g a) entities := by
  intro s
  obtain ⟨rfl, hadded⟩ := hx s
  exact ⟨rfl, hadded⟩

theorem forM {f : α → Lowering Unit} (l : List α) (h : ∀ a ∈ l, Records R (f a) () []) :
    Records R (l.forM f) () [] := by
  induction l with
  | nil => exact pure hR ()
  | cons a rest ih =>
    change Records R (f a >>= fun _ => rest.forM f) () []
    exact quietBind hR (h a List.mem_cons_self) (ih fun b hb => h b (List.mem_cons_of_mem a hb))

theorem mapM {f : α → Lowering β} {result : α → β} {entities : α → List Entity} (l : List α)
    (h : ∀ a ∈ l, Records R (f a) (result a) (entities a)) :
    Records R (l.mapM f) (l.map result) (l.flatMap entities) := by
  induction l with
  | nil => exact pure hR []
  | cons a rest ih =>
    rw [List.mapM_cons, List.flatMap_cons, List.map_cons]
    exact bind hR (h a List.mem_cons_self)
      (thenPure (ih fun b hb => h b (List.mem_cons_of_mem a hb)))

omit hR in
theorem withFrame {x : Lowering α} {a : α} {entities : List Entity} (hx : Records R x a entities) :
    Records R (withFrame x) a entities :=
  fun s => hx { s with frames := [] :: s.frames }

end Records

/-! ## Written types

What a type denotes depends neither on the state nor on what is visited on the way.
-/

variable (scope : Scope)

theorem lowerSpecifier_records (specifier : Specifier) :
    ∃ ty, ∀ {R visit}, Among R → VisitRecords R visit →
      Records R (lowerSpecifier visit scope specifier) ty [] := by
  cases specifier with
  | definition node name =>
    exact ⟨_, fun hR hvisit => .quietBind hR (hvisit scope node) (.pure hR _)⟩
  | _ => exact ⟨_, fun hR _ => .pure hR _⟩

mutual

theorem applyDeclarator_records (declarator : Declarator) (ty : QualType) (params : Option Node) :
    ∃ declared, ∀ {R visit}, Among R → VisitRecords R visit →
      Records R (applyDeclarator visit scope declarator ty params) declared [] := by
  cases declarator with
  | anonymous | named node => exact ⟨_, fun hR _ => .pure hR _⟩
  | pointer quals inner | reference rvalue inner | array bound inner | function params inner =>
    exact applyDeclarator_records inner _ _
  | trailing params result inner =>
    by_cases hauto : ty.isAuto = true
    · obtain ⟨written, hwritten⟩ := lowerWritten_records result
      obtain ⟨declared, hdeclared⟩ :=
        applyDeclarator_records inner written.ty.functionReturning params
      refine ⟨declared, fun hR hvisit => ?_⟩
      rw [applyDeclarator, if_pos hauto]
      exact .quietBind hR (hwritten hR hvisit) (hdeclared hR hvisit)
    · obtain ⟨declared, hdeclared⟩ := applyDeclarator_records inner ty.functionReturning params
      refine ⟨declared, fun hR hvisit => ?_⟩
      rw [applyDeclarator, if_neg hauto]
      exact hdeclared hR hvisit
  | conversion name target =>
    obtain ⟨written, hwritten⟩ := lowerWritten_records target
    exact ⟨{ written with name := some name }, fun hR hvisit =>
      .quietBind hR (hwritten hR hvisit) (.pure hR _)⟩

theorem lowerWritten_records (written : WrittenType) :
    ∃ declared, ∀ {R visit}, Among R → VisitRecords R visit →
      Records R (lowerWritten visit scope written) declared [] := by
  cases written with
  | mk specifier quals declarator =>
    obtain ⟨base, hbase⟩ := lowerSpecifier_records scope specifier
    obtain ⟨declared, hdeclared⟩ :=
      applyDeclarator_records declarator (base.withQuals quals) none
    exact ⟨declared, fun hR hvisit => .quietBind hR (hbase hR hvisit) (hdeclared hR hvisit)⟩

end

/-- What a declaration with one declarator declares, when nothing is visited on the way. -/
def Scope.declared (owner : Node) : Declared :=
  (lowerDeclaration (fun _ _ => pure ()) scope owner {}).1

theorem lowerDeclaration_records (hR : Among R) {visit : Scope → Node → Lowering Unit}
    (hvisit : VisitRecords R visit) (owner : Node) :
    Records R (lowerDeclaration visit scope owner) (scope.declared owner) [] := by
  obtain ⟨base, hbase⟩ := lowerSpecifier_records scope (scope.source.specifierOf owner)
  obtain ⟨declared, hdeclared⟩ := applyDeclarator_records scope
    (((owner.field? .declarator).map scope.source.declarator).getD .anonymous)
    (base.withQuals (scope.source.qualifiersOf owner)) none
  have hlower : ∀ {R visit}, Among R → VisitRecords R visit →
      Records R (lowerDeclaration visit scope owner) declared [] := fun hR hvisit =>
    .quietBind hR (.quietBind hR (hbase hR hvisit) (.pure hR _)) (hdeclared hR hvisit)
  have hidle : scope.declared owner = declared :=
    (hlower Among.eq (fun _ _ => .pure Among.eq ()) {}).1
  rw [hidle]
  exact hlower hR hvisit

/-! ## Parameters -/

/-- The value that a parameter of a function declares, unless it is just `void`. -/
def Scope.parameter? (param : Node) : Option ValueDecl :=
  if !param.kind.isParameter then none
  else if (scope.declared param).name.isNone && (scope.declared param).ty.decay.isVoid then none
  else some {
    name := ((scope.declared param).name.map scope.source.text).getD ""
    kind := .parameter
    ty := (scope.declared param).ty.decay
    location := scope.source.location ((scope.declared param).name.getD param)
    context := scope.context }

/-- The values that the parameters of a list declare, if there is a list. -/
def Scope.parameters (list : Option Node) : List ValueDecl :=
  ((list.map Node.named).getD []).filterMap scope.parameter?

theorem declare_records (hR : Among R) (name : String) (kind : ValueKind) (ty : QualType)
    (location : Option Position) :
    Records R (declare scope name kind ty location) ()
      [.value { name, kind, ty, location, context := scope.context }] := by
  have hadd (decl : ValueDecl) : Records R (addEntity (.value decl)) () [.value decl] :=
    fun s => ⟨rfl, [.value decl], Array.toList_push, hR.refl _⟩
  unfold declare
  split
  · exact .quietBind hR (.of_entities_eq hR (fun _ => rfl) fun _ => rfl) (hadd _)
  · exact hadd _

/-- From the one state to the other, a function with this return type has been recorded in the
context it opens, and the parameters of its list are among the entities added after it. -/
def RecordsFunction (R : List Entity → List Entity → Prop) (returnType : QualType)
    (params : Option Node) (s t : State) : Prop :=
  ∃ decl : FunctionDecl, decl.context = s.unit.contexts.size ∧ decl.returnType = returnType ∧
    ∃ added, t.unit.entities.toList = s.unit.entities.toList ++ .function decl :: added ∧
      R (((scope.inside s).parameters params).map .value) added

section

variable {scope : Scope} {below : Walker} (hR : Among R) (hbelow : VisitRecords R below.visit)

include hR hbelow

theorem visitField_records (child : Option Node) :
    Records R (visitField below scope child) () [] := by
  cases child with
  | none => exact .pure hR ()
  | some node => exact hbelow scope node

theorem visitParameter_records (param : Node) :
    Records R (visitParameter below scope .parameter param)
      ((scope.parameter? param).map (·.ty)) ((scope.parameter? param).toList.map .value) := by
  unfold visitParameter Scope.parameter?
  split
  · exact .pure hR none
  refine .quietBind hR (lowerDeclaration_records scope hR hbelow param) ?_
  dsimp only
  split
  · exact .pure hR none
  have hdefault : Records R (visitField below scope (param.field? .defaultValue) >>= fun _ =>
      pure (some (scope.declared param).ty.decay)) (some (scope.declared param).ty.decay) [] :=
    .thenPure (visitField_records hR hbelow _)
  cases (scope.declared param).name with
  | none => exact .bind hR (declare_records scope hR _ _ _ _) hdefault
  | some name => exact .bind hR (declare_records scope hR _ _ _ _) hdefault

theorem visitParameterList_records (list : Option Node) :
    Records R (visitParameterList below scope .parameter list)
      ((scope.parameters list).map (·.ty)) ((scope.parameters list).map .value) := by
  cases list with
  | none => exact .pure hR []
  | some list =>
    have htypes : (scope.parameters (some list)).map (·.ty) =
        (list.named.map fun param => (scope.parameter? param).map (·.ty)).filterMap id := by
      unfold Scope.parameters
      rw [List.map_filterMap, List.filterMap_map]
      rfl
    have hvalues : (scope.parameters (some list)).map Entity.value =
        list.named.flatMap fun param => (scope.parameter? param).toList.map .value := by
      unfold Scope.parameters
      rw [List.filterMap_eq_flatMap_toList, List.map_flatMap]
      rfl
    rw [htypes, hvalues]
    exact .thenPure (.mapM hR list.named fun param _ => visitParameter_records hR hbelow param)

/-! ## Functions -/

-- The template and the body come after the parameters.
theorem visitFunction_records (owner name : Node) (ty : QualType) (params : Option Node)
    (returnType : QualType) (s : State) :
    RecordsFunction scope R returnType params s
      (visitFunction below scope owner { name := some name, ty, params } returnType s).2 := by
  obtain ⟨decl, hcontext, -, hreturn, hopen⟩ := openFunction_run scope name returnType s
  have hregister (types : List QualType) :
      Records R (registerFunction scope owner name types s.pendingTemplate) () [] := by
    cases s.pendingTemplate <;> exact .of_entities_eq hR (fun _ => rfl) fun _ => rfl
  have hbody : Records R (if !scope.skipBodies then
        visitAll below (scope.inside s) (owner.named.filter isFunctionBody)
      else pure ()) () [] := by
    split
    · exact .forM hR _ fun node _ => hbelow (scope.inside s) node
    · exact .pure hR ()
  have hinside : Records R (withFrame do
        let paramTypes ← visitParameterList below (scope.inside s) .parameter params
        registerFunction scope owner name paramTypes s.pendingTemplate
        if !scope.skipBodies then
          visitAll below (scope.inside s) (owner.named.filter isFunctionBody))
      () (((scope.inside s).parameters params).map .value) :=
    .withFrame (.bindQuiet hR (visitParameterList_records hR hbelow params)
      (.quietBind hR (hregister _) hbody))
  obtain ⟨-, added, hadded, hamong⟩ :=
    hinside { s.functionOpened scope decl with frames := s.frames }
  refine ⟨decl, hcontext, hreturn, added, ?_, hamong⟩
  unfold visitFunction
  simp only [bind_run, hopen]
  rw [hadded]
  simp [State.functionOpened, State.opened, CompilationUnit.addEntity, CompilationUnit.addContext]

end

theorem walker_visitRecords (levels : Nat) : VisitRecords List.Sublist (walker levels).visit := by
  intro scope node s
  obtain ⟨added, hadded, -⟩ := (visit_effect levels scope node s).grows.entities
  exact ⟨rfl, added, hadded, List.nil_sublist added⟩

end WidthCheck.Lowering
