import OperatorRecovery.Proofs.JsonTexts
import OperatorRecovery.SymbolJson

/-!
Reading serialized types, symbols and annotations back. A reader may open a number of
arrays and objects, and what it reads of a serialized value is the value itself where that
number reaches the depth of the JSON, and nothing where it does not. The source makes no
difference, as objects with names are written throughout. Every serialized value can be
written as text.
-/

namespace OperatorRecovery

namespace Json

/-- A value that is read where there is room for its depth. -/
def within (room depth : Nat) (x : α) : Option α := if depth ≤ room then some x else none

section Within

variable (room depth : Nat) (x : α)

@[simp] theorem within_zero : within room 0 x = some x := if_pos (Nat.zero_le room)

@[simp] theorem within_no_room : within 0 (depth + 1) x = none := if_neg (by omega)

@[simp] theorem within_succ : within (room + 1) (depth + 1) x = within room depth x := by
  simp only [within, Nat.add_le_add_iff_right]

@[simp] theorem map_within (f : α → β) :
    (within room depth x).map f = within room depth (f x) := by
  unfold within
  split <;> rfl

@[simp] theorem within_bind_some (f : α → β) :
    ((within room depth x).bind fun a => some (f a)) = within room depth (f x) := by
  unfold within
  split <;> rfl

/-- Two parts are read where there is room for the deeper one. -/
@[simp] theorem within_bind_within (depth' : Nat) (f : α → β) :
    ((within room depth x).bind fun a => within room depth' (f a)) =
      within room (max depth depth') (f x) := by
  unfold within
  by_cases h : depth ≤ room
  · rw [if_pos h, Option.bind_some]
    simp only [Nat.max_le, h, true_and]
  · rw [if_neg h, if_neg (by omega)]
    rfl

end Within

section Readers

variable {read : Nat → Json → Option α} {write : α → Json} {room : Nat} {xs : List α}

theorem mapM_within (h : ∀ x ∈ xs, read room (write x) = within room (write x).depth x) :
    (xs.map write).mapM (read room) = within room (depthOfItems (xs.map write)) xs := by
  induction xs with
  | nil => simp [depthOfItems]
  | cons x xs ih =>
    have hrest := ih fun y hy => h y (List.mem_cons_of_mem x hy)
    rw [List.map_cons, List.mapM_cons, h x List.mem_cons_self, hrest]
    simp [depthOfItems]

theorem items?_within (h : ∀ room, ∀ x ∈ xs, read room (write x) = within room (write x).depth x) :
    items? read room (.array (xs.map write)) =
      within room (depthOfItems (xs.map write) + 1) xs := by
  cases room with
  | zero => simp [items?]
  | succ room =>
    rw [items?, mapM_within (h room), within_succ]

/-- A list field that is left out where the list is empty. -/
def listed (items : List Json) : Option Json := if items.isEmpty then none else some (.array items)

theorem orElse_listed_within (name : String) {read : Json → Option (List α)}
    (h : read (.array (xs.map write)) = within room (depthOfItems (xs.map write) + 1) xs) :
    orElse [] read (listed (xs.map write)) =
      within room (depthOfFields (unlessEmpty name (xs.map write))) xs := by
  cases xs with
  | nil => simp [listed, unlessEmpty, orElse, depthOfFields]
  | cons x xs =>
    simp [listed, unlessEmpty, orElse, depthOfFields, depth] at h ⊢
    exact h

end Readers

section Fields

variable {fields : List (String × Json)}

theorem field?_of_mem (distinct : (fields.map (·.1)).Nodup) {name : String} {j : Json}
    (h : (name, j) ∈ fields) : field? fields name = some (some j) := by
  have hnamed : fieldsNamed name fields = [j] := by
    induction fields with
    | nil => cases h
    | cons head rest ih =>
      obtain ⟨hhead, hrest⟩ := List.nodup_cons.mp distinct
      rcases List.mem_cons.mp h with rfl | h
      · have hnone : rest.filter (·.1 == name) = [] := by
          rw [List.filter_eq_nil_iff]
          intro field hfield heq
          exact hhead (List.mem_map.mpr ⟨field, hfield, eq_of_beq heq⟩)
        simp [fieldsNamed, hnone]
      · have hne : head.1 ≠ name := by
          rintro rfl
          exact hhead (List.mem_map.mpr ⟨(head.1, j), h, rfl⟩)
        have hsame := ih hrest h
        rw [fieldsNamed] at hsame ⊢
        rw [List.filter_cons_of_neg (by simpa using hne), hsame]
  rw [field?, hnamed]

/-- The fields of a record that names each of them once. -/
theorem mapM_field? (distinct : (fields.map (·.1)).Nodup) :
    (fields.map (·.1)).mapM (field? fields) = some (fields.map fun field => some field.2) := by
  have hsome : ∀ rest : List (String × Json), (∀ field ∈ rest, field ∈ fields) →
      (rest.map (·.1)).mapM (field? fields) = some (rest.map fun field => some field.2) := by
    intro rest
    induction rest with
    | nil => exact fun _ => rfl
    | cons field rest ih =>
      intro h
      have hfield := field?_of_mem distinct (h field List.mem_cons_self)
      have hrest := ih fun next hnext => h next (List.mem_cons_of_mem field hnext)
      rw [List.map_cons, List.mapM_cons, hfield, hrest]
      rfl
  exact hsome fields fun _ h => h

theorem field?_of_not_mem {name : String} (h : name ∉ fields.map (·.1)) :
    field? fields name = some none := by
  have hnone : fields.filter (·.1 == name) = [] := by
    rw [List.filter_eq_nil_iff]
    intro field hfield heq
    exact h (List.mem_map.mpr ⟨field, hfield, eq_of_beq heq⟩)
  rw [field?, fieldsNamed, hnone]
  rfl

/-- A record whose last field is a list that may be left out. -/
theorem mapM_field?_listed {last : String} (distinct : (fields.map (·.1) ++ [last]).Nodup)
    (items : List Json) :
    (fields.map (·.1) ++ [last]).mapM (field? (fields ++ unlessEmpty last items)) =
      some ((fields.map fun field => some field.2) ++ [listed items]) := by
  rw [unlessEmpty, listed]
  split
  · have hlast : last ∉ fields.map (·.1) := fun h =>
      (List.nodup_append.mp distinct).2.2 last h last (List.mem_singleton.mpr rfl) rfl
    rw [List.append_nil, List.mapM_append, mapM_field? (List.nodup_append.mp distinct).1]
    simp [field?_of_not_mem hlast]
  · have hall : ((fields ++ [(last, Json.array items)]).map (·.1)).mapM
        (field? (fields ++ [(last, Json.array items)])) = _ :=
      mapM_field? (by rwa [List.map_append])
    rw [List.map_append, List.map_append] at hall
    exact hall

theorem variant?_named (source : Source) {names : List String}
    (hnames : names = fields.map (·.1)) (distinct : names.Nodup) :
    variant? source names (.object fields) = some (fields.map fun field => some field.2) := by
  subst hnames
  rw [variant?_object, mapM_field? distinct]

theorem variant?_listed (source : Source) {names : List String} {last : String}
    (hnames : names = fields.map (·.1) ++ [last]) (distinct : names.Nodup) (items : List Json) :
    variant? source names (.object (fields ++ unlessEmpty last items)) =
      some ((fields.map fun field => some field.2) ++ [listed items]) := by
  subst hnames
  rw [variant?_object, mapM_field?_listed distinct]

theorem record?_named {names : List String} (hnames : names = fields.map (·.1))
    (distinct : names.Nodup) :
    record? names (.object fields) = some (fields.map fun field => some field.2) :=
  variant?_named .text hnames distinct

theorem record?_listed {names : List String} {last : String}
    (hnames : names = fields.map (·.1) ++ [last]) (distinct : names.Nodup) (items : List Json) :
    record? names (.object (fields ++ unlessEmpty last items)) =
      some ((fields.map fun field => some field.2) ++ [listed items]) :=
  variant?_listed .text hnames distinct items

end Fields

section Objects

variable {read : Nat → Json → Option α} {x : α} {tag : String}

theorem within_object {fields : List (String × Json)} (hzero : read 0 (.object fields) = none)
    (h : ∀ room, read (room + 1) (.object fields) = within room (depthOfFields fields) x)
    (room : Nat) : read room (.object fields) = within room (depth (.object fields)) x := by
  cases room with
  | zero => rw [hzero, depth, within_no_room]
  | succ room => rw [h, depth, within_succ]

/-- A value under a tag. -/
theorem within_tag {content : Json} (hzero : read 0 (.object [(tag, content)]) = none)
    (h : ∀ room, read (room + 1) (.object [(tag, content)]) = within room content.depth x)
    (room : Nat) :
    read room (.object [(tag, content)]) = within room (depth (.object [(tag, content)])) x := by
  apply within_object hzero
  intro room
  rw [h, depthOfFields, depthOfFields, Nat.max_eq_left (Nat.zero_le _)]

/-- A record under a tag, for which two objects are opened. -/
theorem within_record {fields : List (String × Json)}
    (hzero : read 0 (.object [(tag, .object fields)]) = none)
    (hone : read 1 (.object [(tag, .object fields)]) = none)
    (h : ∀ room, read (room + 2) (.object [(tag, .object fields)]) =
      within room (depthOfFields fields) x) (room : Nat) :
    read room (.object [(tag, .object fields)]) =
      within room (depth (.object [(tag, .object fields)])) x := by
  apply within_tag hzero
  intro room
  cases room with
  | zero => rw [hone, depth, within_no_room]
  | succ room => rw [h, depth, within_succ]

end Objects

section Writable

@[simp] theorem isWritable_string (s : String) : IsWritable (.string s) := .string s

@[simp] theorem isWritable_bool (b : Bool) : IsWritable (.bool b) := .bool b

@[simp] theorem isWritable_null : IsWritable .null := .null

@[simp] theorem isWritable_uint32 (n : UInt32) : IsWritable (.nat n.toNat) := by
  have h := n.toNat_lt
  exact .int (by omega) (by omega)

@[simp] theorem isWritable_int64 (n : Int64) : IsWritable (.int n.toInt) := by
  have hlow := n.le_toInt
  have hhigh := n.toInt_lt
  exact .int (by omega) (by omega)

@[simp] theorem isWritable_array_iff (items : List Json) :
    IsWritable (.array items) ↔ ∀ j ∈ items, j.IsWritable := by
  constructor
  · intro h
    cases h with
    | array writable => exact writable
  · exact .array

@[simp] theorem isWritable_object_iff (fields : List (String × Json)) :
    IsWritable (.object fields) ↔ ∀ field ∈ fields, field.2.IsWritable := by
  constructor
  · intro h
    cases h with
    | object writable => exact writable
  · exact .object

theorem isWritable_tag {j : Json} (h : j.IsWritable) (tag : String) :
    IsWritable (.object [(tag, j)]) := by simpa using h

theorem isWritable_unlessEmpty {name : String} {items : List Json}
    (h : ∀ j ∈ items, j.IsWritable) : ∀ field ∈ unlessEmpty name items, field.2.IsWritable := by
  rw [unlessEmpty]
  split
  · exact nofun
  · simpa using h

end Writable

end Json

open Json

namespace TypeParameter

theorem ofJson?_toJson (room : Nat) (p : TypeParameter) :
    ofJson? room p.toJson = within room p.toJson.depth p := by
  apply within_object
  · rfl
  · intro room
    rw [ofJson?, record?_named (by rfl) (by decide)]
    simp [orElse, string?, bool?, depthOfFields, depth]

theorem isWritable_toJson (p : TypeParameter) : p.toJson.IsWritable := by simp [toJson]

end TypeParameter

namespace ResolvedType

theorem listToJson_eq_map (types : List ResolvedType) : listToJson types = types.map toJson := by
  induction types with
  | nil => rfl
  | cons t rest ih => simp [listToJson, ih]

theorem listOfJson?_eq_items? (source : Source) (room : Nat) (j : Json) :
    listOfJson? source room j = items? (ofJson? source) room j := by
  cases room <;> cases j <;> rfl

theorem ofJson?_named {source : Source} {arguments : List ResolvedType}
    (h : ∀ t ∈ arguments, ∀ room, ofJson? source room t.toJson = within room t.toJson.depth t)
    (ns name : String) (room : Nat) :
    ofJson? source room (named ns name arguments).toJson =
      within room (named ns name arguments).toJson.depth (named ns name arguments) := by
  have hlist : ∀ room, listOfJson? source room (.array (arguments.map toJson)) =
      within room (depthOfItems (arguments.map toJson) + 1) arguments := by
    intro room
    rw [listOfJson?_eq_items?]
    exact items?_within fun room t ht => h t ht room
  rw [toJson, listToJson_eq_map]
  apply within_record
  · rfl
  · rfl
  · intro room
    rw [ofJson?]
    case heq => exact variant?_listed source (by rfl) (by decide) (arguments.map toJson)
    rw [orElse_listed_within "type_args" (hlist room)]
    simp [string?, depthOfFields, depth]

mutual

theorem ofJson?_toJson (source : Source) (t : ResolvedType) (room : Nat) :
    ofJson? source room t.toJson = within room t.toJson.depth t := by
  cases t with
  | named ns name arguments => exact ofJson?_named (ofJson?_of_mem source arguments) ns name room
  | array element rank =>
    rw [toJson]
    apply within_record
    · rfl
    · rfl
    · intro room
      have helement := ofJson?_toJson source element room
      rw [ofJson?]
      case heq => exact variant?_named source (by rfl) (by decide)
      rw [helement, nat, uint32?_ofNat]
      simp [depthOfFields, depth]
  | byRef referent =>
    rw [toJson]
    apply within_tag
    · rfl
    · intro room
      rw [ofJson?, ofJson?_toJson source referent room, map_within]
  | parameter p =>
    rw [toJson]
    apply within_tag
    · rfl
    · intro room
      rw [ofJson?, TypeParameter.ofJson?_toJson, map_within]
  | unknown => simp [ofJson?, toJson, depth]

theorem ofJson?_of_mem (source : Source) (types : List ResolvedType) :
    ∀ t ∈ types, ∀ room, ofJson? source room t.toJson = within room t.toJson.depth t := by
  cases types with
  | nil => exact nofun
  | cons first rest =>
    exact List.forall_mem_cons.mpr ⟨ofJson?_toJson source first, ofJson?_of_mem source rest⟩

end

mutual

theorem isWritable_toJson (t : ResolvedType) : t.toJson.IsWritable := by
  cases t with
  | named ns name arguments =>
    have harguments := List.forall_mem_map.mpr (isWritable_of_mem arguments)
    rw [toJson, listToJson_eq_map]
    refine isWritable_tag (.object (List.forall_mem_append.mpr ⟨?_, ?_⟩)) "named"
    · simp
    · exact isWritable_unlessEmpty harguments
  | array element rank => simp [toJson, isWritable_toJson element]
  | byRef referent => simp [toJson, isWritable_toJson referent]
  | parameter p => simp [toJson, p.isWritable_toJson]
  | unknown => simp [toJson]

theorem isWritable_of_mem (types : List ResolvedType) : ∀ t ∈ types, t.toJson.IsWritable := by
  cases types with
  | nil => exact nofun
  | cons first rest =>
    exact List.forall_mem_cons.mpr ⟨isWritable_toJson first, isWritable_of_mem rest⟩

end

end ResolvedType

namespace TypeSyntax

theorem listOfJson?_eq_items? (source : Source) (room : Nat) (j : Json) :
    listOfJson? source room j = items? (ofJson? source) room j := by
  cases room <;> cases j <;> rfl

section Arguments

variable {source : Source} {arguments : List TypeSyntax}
  (h : ∀ t ∈ arguments, ∀ room, ofJson? source room t.toJson = within room t.toJson.depth t)
include h

theorem orElse_listOfJson? (room : Nat) :
    orElse [] (listOfJson? source room) (listed (arguments.map toJson)) =
      within room (depthOfFields (unlessEmpty "type_args" (arguments.map toJson))) arguments := by
  apply orElse_listed_within
  rw [listOfJson?_eq_items?]
  exact items?_within fun room t ht => h t ht room

theorem ofJson?_simple (name : String) (room : Nat) :
    ofJson? source room (simple name arguments).toJson =
      within room (simple name arguments).toJson.depth (simple name arguments) := by
  have hfields : ("name", Json.string name) :: unlessEmpty "type_args" (arguments.map toJson) =
      [("name", Json.string name)] ++ unlessEmpty "type_args" (arguments.map toJson) := rfl
  rw [toJson, listToJson_eq_map, hfields]
  apply within_record
  · rfl
  · rfl
  · intro room
    rw [ofJson?]
    case heq => exact variant?_listed source (by rfl) (by decide) (arguments.map toJson)
    rw [orElse_listOfJson? h]
    simp [string?, depthOfFields, depth]

theorem ofJson?_member {target : TypeSyntax}
    (htarget : ∀ room, ofJson? source room target.toJson = within room target.toJson.depth target)
    (name : String) (room : Nat) :
    ofJson? source room (member target name arguments).toJson =
      within room (member target name arguments).toJson.depth (member target name arguments) := by
  rw [toJson, listToJson_eq_map]
  apply within_record
  · rfl
  · rfl
  · intro room
    rw [ofJson?]
    case heq => exact variant?_listed source (by rfl) (by decide) (arguments.map toJson)
    rw [orElse_listOfJson? h, htarget]
    simp [string?, depthOfFields, depth]

end Arguments

mutual

theorem ofJson?_toJson (source : Source) (t : TypeSyntax) (room : Nat) :
    ofJson? source room t.toJson = within room t.toJson.depth t := by
  cases t with
  | keyword word =>
    rw [toJson]
    apply within_tag
    · rfl
    · intro room
      rw [ofJson?]
      simp [string?, depth]
  | simple name arguments => exact ofJson?_simple (ofJson?_of_mem source arguments) name room
  | member target name arguments =>
    exact ofJson?_member (ofJson?_of_mem source arguments) (ofJson?_toJson source target) name room
  | array element rank =>
    rw [toJson]
    apply within_record
    · rfl
    · rfl
    · intro room
      have helement := ofJson?_toJson source element room
      rw [ofJson?]
      case heq => exact variant?_named source (by rfl) (by decide)
      rw [helement, nat, uint32?_ofNat]
      simp [depthOfFields, depth]

theorem ofJson?_of_mem (source : Source) (types : List TypeSyntax) :
    ∀ t ∈ types, ∀ room, ofJson? source room t.toJson = within room t.toJson.depth t := by
  cases types with
  | nil => exact nofun
  | cons first rest =>
    exact List.forall_mem_cons.mpr ⟨ofJson?_toJson source first, ofJson?_of_mem source rest⟩

end

mutual

theorem isWritable_toJson (t : TypeSyntax) : t.toJson.IsWritable := by
  cases t with
  | keyword word => simp [toJson]
  | simple name arguments =>
    have harguments := List.forall_mem_map.mpr (isWritable_of_mem arguments)
    rw [toJson, listToJson_eq_map]
    refine isWritable_tag (.object (List.forall_mem_cons.mpr ⟨?_, ?_⟩)) "simple"
    · simp
    · exact isWritable_unlessEmpty harguments
  | member target name arguments =>
    have htarget := isWritable_toJson target
    have harguments := List.forall_mem_map.mpr (isWritable_of_mem arguments)
    rw [toJson, listToJson_eq_map]
    refine isWritable_tag (.object (List.forall_mem_append.mpr ⟨?_, ?_⟩)) "member"
    · simp [htarget]
    · exact isWritable_unlessEmpty harguments
  | array element rank => simp [toJson, isWritable_toJson element]

theorem isWritable_of_mem (types : List TypeSyntax) : ∀ t ∈ types, t.toJson.IsWritable := by
  cases types with
  | nil => exact nofun
  | cons first rest =>
    exact List.forall_mem_cons.mpr ⟨isWritable_toJson first, isWritable_of_mem rest⟩

end

end TypeSyntax

namespace Parameter

theorem ofJson?_toJson (source : Source) (p : Parameter) (room : Nat) :
    ofJson? source room p.toJson = within room p.toJson.depth p := by
  apply within_object
  · rfl
  · intro room
    rw [ofJson?, record?_named (by rfl) (by decide)]
    simp [string?, ResolvedType.ofJson?_toJson, depthOfFields, depth]

theorem isWritable_toJson (p : Parameter) : p.toJson.IsWritable := by
  simp [toJson, ResolvedType.isWritable_toJson]

end Parameter

namespace Method

theorem ofJson?_toJson (source : Source) (m : Method) (room : Nat) :
    ofJson? source room m.toJson = within room m.toJson.depth m := by
  have hparameters : ∀ room, items? (Parameter.ofJson? source) room
      (.array (m.parameters.map Parameter.toJson)) =
        within room (depthOfItems (m.parameters.map Parameter.toJson) + 1) m.parameters :=
    fun room => items?_within fun room p _ => p.ofJson?_toJson source room
  have htypeArguments : ∀ room, items? (ResolvedType.ofJson? source) room
      (.array (m.typeArguments.map ResolvedType.toJson)) =
        within room (depthOfItems (m.typeArguments.map ResolvedType.toJson) + 1) m.typeArguments :=
    fun room => items?_within fun room t _ => t.ofJson?_toJson source room
  apply within_object
  · rfl
  · intro room
    have hlisted := orElse_listed_within "type_arguments" (htypeArguments room)
    rw [ofJson?, record?_listed (by rfl) (by decide)]
    simp only [List.map_cons, List.map_nil, List.cons_append, List.nil_append, hlisted]
    simp [string?, bool?, orElse, hparameters, ResolvedType.ofJson?_toJson, depthOfFields, depth]

theorem isWritable_toJson (m : Method) : m.toJson.IsWritable := by
  refine .object (List.forall_mem_append.mpr ⟨?_, isWritable_unlessEmpty ?_⟩)
  · simp [Parameter.isWritable_toJson, ResolvedType.isWritable_toJson]
  · exact List.forall_mem_map.mpr fun t _ => t.isWritable_toJson

end Method

namespace Field

theorem ofJson?_toJson (source : Source) (f : Field) (room : Nat) :
    ofJson? source room f.toJson = within room f.toJson.depth f := by
  apply within_object
  · rfl
  · intro room
    rw [ofJson?, record?_named (by rfl) (by decide)]
    simp [string?, ResolvedType.ofJson?_toJson, depthOfFields, depth]

theorem isWritable_toJson (f : Field) : f.toJson.IsWritable := by
  simp [toJson, ResolvedType.isWritable_toJson]

end Field

namespace Symbol

theorem ofJson?_toJson (source : Source) (s : Symbol) (room : Nat) :
    ofJson? source room s.toJson = within room s.toJson.depth s := by
  cases s with
  | method m =>
    apply within_tag
    · rfl
    · intro room
      rw [ofJson?, m.ofJson?_toJson, map_within]
  | field f =>
    apply within_tag
    · rfl
    · intro room
      rw [ofJson?, f.ofJson?_toJson, map_within]
  | type t =>
    apply within_tag
    · rfl
    · intro room
      rw [ofJson?, t.ofJson?_toJson, map_within]

theorem isWritable_toJson (s : Symbol) : s.toJson.IsWritable := by
  cases s with
  | method m => exact isWritable_tag m.isWritable_toJson "method"
  | field f => exact isWritable_tag f.isWritable_toJson "field"
  | type t => exact isWritable_tag t.isWritable_toJson "type"

end Symbol

namespace InstructionRange

theorem ofJson?_toJson (r : InstructionRange) (room : Nat) :
    ofJson? room r.toJson = within room r.toJson.depth r := by
  apply within_object
  · rfl
  · intro room
    rw [ofJson?, record?_named (by rfl) (by decide)]
    simp [nat, uint32?_ofNat, depthOfFields, depth]

theorem isWritable_toJson (r : InstructionRange) : r.toJson.IsWritable := by simp [toJson]

end InstructionRange

namespace Annotation

theorem ofJson?_toJson (source : Source) (a : Annotation) (room : Nat) :
    ofJson? source room a.toJson = within room a.toJson.depth a := by
  cases a with
  | symbol s =>
    apply within_tag
    · rfl
    · intro room
      rw [ofJson?, s.ofJson?_toJson, map_within]
  | instructions ranges =>
    apply within_tag
    · rfl
    · intro room
      rw [ofJson?, items?_within fun room r _ => r.ofJson?_toJson room, map_within, depth]
  | resolvedType t =>
    apply within_tag
    · rfl
    · intro room
      rw [ofJson?, t.ofJson?_toJson, map_within]
  | loadToken => simp [ofJson?, toJson, depth]

theorem isWritable_toJson (a : Annotation) : a.toJson.IsWritable := by
  cases a with
  | symbol s => exact isWritable_tag s.isWritable_toJson "symbol"
  | instructions ranges =>
    refine isWritable_tag (.array (List.forall_mem_map.mpr ?_)) "instructions"
    exact fun r _ => r.isWritable_toJson
  | resolvedType t => exact isWritable_tag t.isWritable_toJson "resolved_type"
  | loadToken => exact .string "load_token"

end Annotation

namespace Annotations

theorem ofJson?_toJson (source : Source) (as : Annotations) (room : Nat) :
    ofJson? source room as.toJson = within room as.toJson.depth as :=
  items?_within fun room a _ => a.ofJson?_toJson source room

end Annotations

end OperatorRecovery
