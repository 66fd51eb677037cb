import ScriptCheck.Proofs.Mirroring

/-!
# An analyzer reads and looks up without a trace

While no bound of a type parameter is being read, type expressions are read and names looked up
as without an analyzer, and the guards are the same afterwards.
-/

namespace ScriptCheck

namespace Guards

/-- No bound of a type parameter is being read. -/
def Free (guards : Guards) : Prop :=
  ∀ param, guards.inProgress.contains (.reading param) = false

/-- The guards while the bounds of type parameters are being read. -/
def reading (guards : Guards) (busy : List Node) : Guards :=
  { guards with inProgress := busy.map .reading ++ guards.inProgress }

/-- A bound is being read exactly if it is among those that are said to be. -/
theorem contains_reading {guards : Guards} (free : guards.Free) (busy : List Node) (param : Node) :
    (guards.reading busy).inProgress.contains (.reading param) = busy.contains param := by
  show (busy.map Activity.reading ++ guards.inProgress).contains (.reading param) = _
  rw [List.contains_append, free param, Bool.or_false]
  induction busy with
  | nil => rfl
  | cons node rest ih =>
    rw [List.map_cons, List.contains_cons, List.contains_cons, ih]
    rfl

end Guards

namespace Analyzer

variable {guards : Guards}

section Lowering

variable {work : Node → Asking Ty} {lower : List Node → Node → Ty}

/-- How type expressions are read, while bounds are being read. -/
def ReadsAs (guards : Guards) (work : Node → Asking Ty) (lower : List Node → Node → Ty) : Prop :=
  ∀ busy node, Mirrors (guards.reading busy) (work node) (pure (lower busy node))

/-- The type of a field is read as without an analyzer. -/
theorem objectField?_mirrors (same : ReadsAs guards work lower) (busy : List Node) (entry : Node) :
    Mirrors (guards.reading busy) (objectField? work entry)
      (pure (Node.objectField? (lower busy) entry)) := by
  unfold objectField? Node.objectField?
  cases entry.form with
  | objectTypeEntry name optional value => exact (same busy _).known _
  | _ => exact .pure _

/-- So is the type of a parameter. -/
theorem declaredParam?_mirrors (same : ReadsAs guards work lower) (busy : List Node)
    (param : Node) :
    Mirrors (guards.reading busy) (declaredParam? work param)
      (pure (Node.declaredParam? (lower busy) param)) := by
  unfold declaredParam? Node.declaredParam?
  cases param.form with
  | param name ascription =>
    cases ascription with
    | none => exact .pure _
    | some id => exact (same busy _).known _
  | _ => exact .pure _

/-- A type parameter inside its own bound is read without the bound. -/
theorem parameterType_mirrors (free : guards.Free) (same : ReadsAs guards work lower)
    (busy : List Node) (param : Node) :
    Mirrors (guards.reading busy) (parameterType work param)
      (pure (Node.parameterType lower busy param)) := by
  unfold parameterType Node.parameterType
  cases param.form with
  | typeParam name bound =>
    cases hb : busy.contains param with
    | true => exact .guarded_again (by rw [Guards.contains_reading free, hb])
    | false =>
      refine .guarded_new (by rw [Guards.contains_reading free, hb]) ?_
      cases bound with
      | none => exact .pure _
      | some id => exact (same (param :: busy) _).known fun inner => Ty.generic name (some inner)
  | _ => exact .pure _

/-- A type parameter is declared with the bound that is read for it. -/
theorem declaredTypeParam?_mirrors (free : guards.Free) (same : ReadsAs guards work lower)
    (busy : List Node) (param : Node) :
    Mirrors (guards.reading busy) (declaredTypeParam? work param)
      (pure (Node.declaredTypeParam? (Node.parameterType lower busy) param)) := by
  refine (parameterType_mirrors free same busy param).value ?_
  unfold Node.declaredTypeParam?
  cases Node.parameterType lower busy param with
  | _ => exact .pure _

/-- One level of a type expression is read alike if the levels below are. -/
theorem lowerStep_mirrors (free : guards.Free) (same : ReadsAs guards work lower) :
    ReadsAs guards (lowerStep work) (Node.lowerStep lower) := by
  intro busy node
  have inside (id : NodeId) :
      Mirrors (guards.reading busy) (work (node.sibling id)) (pure (lower busy (node.sibling id))) :=
    same busy _
  have all (ids : List NodeId) :
      Mirrors (guards.reading busy) (ids.mapM fun id => work (node.sibling id))
        (pure (ids.map fun id => lower busy (node.sibling id))) :=
    .map ids fun id _ => inside id
  have typeParams (ids : List NodeId) :=
    Mirrors.filterMap (ids.map node.sibling)
      fun param _ => declaredTypeParam?_mirrors free same busy param
  have params (ids : List NodeId) :=
    Mirrors.filterMap (ids.map node.sibling) fun param _ => declaredParam?_mirrors same busy param
  unfold lowerStep Node.lowerStep
  cases node.form with
  | namedType name args =>
    dsimp only
    cases node.typeParamInScope? name with
    | some param => exact parameterType_mirrors free same busy param
    | none => exact (all args).known _
  | unionType members => exact (all members).known _
  | tupleType elements => exact (all elements).known _
  | arrayType element => exact (inside element).known _
  | iteratorType inner => exact (inside inner).known _
  | planType inner => exact (inside inner).known _
  | readonlyType inner => exact (inside inner).known _
  | parenthesizedType inner => exact inside inner
  | objectType entries =>
    exact (Mirrors.filterMap (entries.map node.sibling)
      fun entry _ => objectField?_mirrors same busy entry).known _
  | indexerType key value => exact (inside key).value ((inside value).known _)
  | funcType typeParamIds paramIds result =>
    exact (typeParams typeParamIds).value ((params paramIds).value ((inside result).known _))
  | procType typeParamIds paramIds => exact (typeParams typeParamIds).value ((params paramIds).known _)
  | _ => exact .pure _

/-- Type expressions are read alike: by induction on how deep they are nested. -/
theorem lowerWithin_mirrors (free : guards.Free) (limit : Nat) :
    ReadsAs guards (lowerWithin limit) (Node.lowerWithin limit) := by
  induction limit with
  | zero => exact fun busy node => .pure _
  | succ limit ih => exact lowerStep_mirrors free ih

/-- A type expression is read as without an analyzer, and nothing is left under way. -/
theorem lower_mirrors (free : guards.Free) (node : Node) :
    Mirrors guards (Analyzer.lower node) (pure node.lower) :=
  lowerWithin_mirrors free node.loweringLimit [] node

end Lowering

variable (free : guards.Free)
include free

/-- What a type parameter stands for. -/
theorem asTypeParameter_mirrors (param : Node) :
    Mirrors guards (asTypeParameter param) (pure param.asTypeParameter) :=
  parameterType_mirrors free (lowerWithin_mirrors free _) [] param

/-- The type parameters of a node. -/
theorem typeParamSlots_mirrors (holder : Node) (ids : List NodeId) :
    Mirrors guards (typeParamSlots holder ids) (pure (holder.typeParamSlots ids)) :=
  .filterMap _ fun param _ =>
    declaredTypeParam?_mirrors free (lowerWithin_mirrors free param.loweringLimit) [] param

/-- The parameters of a node. -/
theorem paramSlots_mirrors (holder : Node) (ids : List NodeId) :
    Mirrors guards (paramSlots holder ids) (pure (holder.paramSlots ids)) := by
  refine .filterMap _ fun param _ => ?_
  unfold declaredParam? Node.declaredParam?
  cases param.form with
  | param name ascription =>
    cases ascription with
    | none => exact .pure _
    | some id => exact (lower_mirrors free _).known _
  | _ => exact .pure _

/-- The type that a declaration gives a name to. -/
theorem namedTypeBinding_mirrors (declaration : Node) :
    Mirrors guards (namedTypeBinding declaration) (pure declaration.namedTypeBinding) := by
  unfold namedTypeBinding Node.namedTypeBinding
  cases declaration.form with
  | typeDeclaration name typeParams value nominal exported =>
    exact (lower_mirrors free _).value ((typeParamSlots_mirrors free _ _).known _)
  | _ => exact .pure _

/-- What a declaration makes of a name. -/
theorem declares?_mirrors (declaration : Node) (name : String) (space : Namespace) :
    Mirrors guards (declares? declaration name space) (pure (declaration.declares? name space)) := by
  cases space with
  | value => exact .pure _
  | type =>
    unfold declares? Node.declares?
    dsimp only
    split
    · exact (namedTypeBinding_mirrors free declaration).known _
    · exact .pure _

/-- What a list of type parameters makes of a name. -/
theorem typeParamBinding?_mirrors (scope : Node) (ids : List NodeId) (name : String) :
    Mirrors guards (typeParamBinding? scope ids name) (pure (scope.typeParamBinding? ids name)) := by
  unfold typeParamBinding? Node.typeParamBinding?
  cases scope.typeParamNamed? ids name with
  | none => exact .pure _
  | some param =>
    exact (asTypeParameter_mirrors free param).known
      fun type => some (Except.ok (Binding.type type []))

omit free in
/-- A search stops at the same item if each item answers alike. -/
theorem firstAnswer_mirrors (items : List α)
    (same : ∀ item, Mirrors guards (work item) (ask item)) :
    Mirrors guards (firstAnswer work items) (Inquiry.firstAnswer ask items) := by
  induction items with
  | nil => exact .pure none
  | cons item rest ih =>
    exact (same item).bind fun
      | some found => .pure _
      | none => ih

/-- What a script exports under a name. -/
theorem export?_mirrors (script : Script) (name : String) (space : Namespace) :
    Mirrors guards (export? script name space) (pure (script.export? name space)) := by
  unfold export? Script.export?
  generalize script.declarations.filter Node.isExported = exported
  induction exported with
  | nil => exact .pure none
  | cons declaration rest ih =>
    rw [List.findSome?_cons]
    refine (declares?_mirrors free declaration name space).value ?_
    cases declaration.declares? name space with
    | some found => exact .pure _
    | none => exact ih

omit free in
/-- Loading a script is asked of the program in both. -/
theorem load_mirrors (importer : Node) (specifier : String) :
    Mirrors guards (load importer specifier) (importer.load specifier) :=
  .base _

/-- What an import makes of a name. -/
theorem imported?_mirrors (importing : Node) (path name : String) (space : Namespace) :
    Mirrors guards (imported? importing path name space) (importing.imported? path name space) := by
  refine (load_mirrors importing path).bind fun target => ?_
  cases target with
  | none => exact .pure _
  | some target =>
    refine (export?_mirrors free target name space).value ?_
    dsimp only
    cases target.export? name space with
    | some binding => exact .pure _
    | none =>
      refine (export?_mirrors free target name space.other).value ?_
      dsimp only
      split
      · exact .pure _
      · exact .pure _

/-- What a declaration of the file makes of a name used in another place of it. -/
theorem topLevel?_mirrors (declaration : Node) (index : Nat) (child : Node) (name : String)
    (space : Namespace) :
    Mirrors guards (topLevel? declaration index child name space)
      (declaration.topLevel? index child name space) := by
  have declared := declares?_mirrors free declaration name space
  unfold topLevel? Node.topLevel?
  cases declaration.form with
  | importNames path items =>
    refine firstAnswer_mirrors items fun id => ?_
    cases (declaration.sibling id).form with
    | importItem importedName localName =>
      dsimp only
      split
      · exact imported?_mirrors free declaration path importedName space
      · exact .pure _
    | _ => exact .pure _
  | importAll path localName =>
    dsimp only
    split
    · exact .pure _
    · exact .pure _
  | _ => exact declared.known _

/-- What a scope makes of a name that is used in one of its children. -/
theorem scopeLookup?_mirrors (scope child : Node) (name : String) (space : Namespace) :
    Mirrors guards (scopeLookup? scope child name space) (scope.scopeLookup? child name space) := by
  unfold scopeLookup?
  cases hs : scope.form with
  | module declarations =>
    unfold Node.scopeLookup?
    rw [hs]
    exact firstAnswer_mirrors _ fun row => topLevel?_mirrors free _ _ child name space
  | func typeParams | proc typeParams | typeDeclaration _ typeParams | funcType typeParams
  | procType typeParams =>
    cases space with
    | value => exact .base _
    | type =>
      unfold Node.scopeLookup?
      rw [hs]
      exact typeParamBinding?_mirrors free scope typeParams name
  | _ =>
    cases space with
    | value => exact .base _
    | type =>
      unfold Node.scopeLookup?
      rw [hs]
      exact .pure _

/-- A name is looked up in the same scopes, from the inside out. -/
theorem resolveIn_mirrors (name : String) (node : Node) (space : Namespace) :
    Mirrors guards (resolveIn name node space) (node.resolveIn name space) := by
  refine (firstAnswer_mirrors node.enclosing fun link => ?_).bind fun _ => .pure _
  exact scopeLookup?_mirrors free link.2 link.1 name space

/-- A name that is used is looked up in the namespace of its use. -/
theorem resolve_mirrors (name : String) (node : Node) :
    Mirrors guards (resolve name node) (node.resolve name) := by
  unfold resolve Node.resolve
  cases node.form with
  | _ => exact resolveIn_mirrors free name node _

/-- Aliases are opened alike: by induction on how many are left. -/
theorem expandWithin_mirrors (limit : Nat) (type : Ty) :
    Mirrors guards (expandWithin limit type) (type.expandWithin limit) := by
  induction limit generalizing type with
  | zero => exact .pure _
  | succ limit ih =>
    cases type with
    | named name args origin =>
      refine (resolveIn_mirrors free name origin .type).bind fun found => ?_
      cases found with
      | error reason => exact .pure _
      | ok binding =>
        cases binding with
        | type type params => exact ih _
        | _ => exact .pure _
    | _ => exact .pure _

/-- A type is seen through its aliases alike. -/
theorem expand_mirrors (type : Ty) : Mirrors guards (expand type) type.expand :=
  expandWithin_mirrors free expansionLimit type

end Analyzer

end ScriptCheck
