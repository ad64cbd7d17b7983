import OperatorRecovery.CommandLine
import OperatorRecovery.Proofs.FormCounts
import OperatorRecovery.Proofs.SerializedTrees

/-!
Trees that the command line prints as JSON and loads again. A printed tree is loaded where
its JSON nests no deeper than a text may, and is no tree otherwise. A run can make a tree
deeper than the one it was given: a call of `String.Concat` has its arguments side by side,
and the chain of additions nests them, so the output of a run on a tree that was loaded may
be no tree that can be loaded.
-/

namespace OperatorRecovery

namespace Tree

/-- Every number of the tree reads back from its text. -/
def ReadsBack (t : Tree) : Prop := ∀ node ∈ t.nodes, node.2.form.ReadsBack

theorem ReadsBack.root {t : Tree} (h : t.ReadsBack) {root : Role × Expr} (hroot : root ∈ t.roots) :
    Expr.Every (fun _ e => e.form.ReadsBack) root.1 root.2 :=
  (t.forall_nodes_iff fun _ e => e.form.ReadsBack).mp h root hroot

theorem readsBack_shape (form : Form ε) : form.shape.ReadsBack ↔ form.ReadsBack := by
  cases form <;> exact Iff.rfl

/-- The only numbers that a run makes are whole. -/
theorem readsBack_of_makes {settings : Settings} {shape : Form Unit}
    (h : Pass.Makes settings shape) : shape.ReadsBack := by
  cases h <;> trivial

open Classical in
theorem ReadsBack.recover {t : Tree} (h : t.ReadsBack) (settings : Settings)
    (spelling : Spelling) : (t.recover settings spelling).ReadsBack := by
  have hshapes : ∀ node ∈ t.nodes, decide (¬ node.2.form.shape.ReadsBack) = false := by
    intro node hnode
    rw [decide_eq_false_iff_not, Classical.not_not, readsBack_shape]
    exact h node hnode
  have hunmade : ∀ shape, Pass.Makes settings shape → decide (¬ shape.ReadsBack) = false := by
    intro shape hmakes
    rw [decide_eq_false_iff_not, Classical.not_not]
    exact readsBack_of_makes hmakes
  intro node hnode
  have hshape := forall_nodes_recover_of_unmade (fun shape => decide (¬ shape.ReadsBack)) hunmade
    hshapes node hnode
  rwa [decide_eq_false_iff_not, Classical.not_not, readsBack_shape] at hshape

end Tree

namespace Expr

theorem depth_toJson_mk (form : Form Expr) (annotations : Annotations) :
    (toJson ⟨form, annotations⟩).depth =
      max (form.map toJson).toJson.depth (Json.depthOfFields
        (Json.unlessEmpty "annotations" (annotations.map Annotation.toJson))) + 1 := by
  rw [toJson_mk, Json.depth, Json.depthOfFields]

theorem depth_toJson_pos (e : Expr) : 0 < e.toJson.depth := by
  obtain ⟨form, annotations⟩ := e
  rw [depth_toJson_mk]
  omega

theorem depth_toJson_binary (op : BinaryOperator) (left right : Expr) :
    (ofForm (.binary op left right)).toJson.depth =
      max left.toJson.depth right.toJson.depth + 3 := by
  rw [ofForm, depth_toJson_mk]
  simp [Form.map, Form.toJson, BinaryOperator.toJson, Json.depth, Json.depthOfFields,
    Json.unlessEmpty]

end Expr

namespace Concatenation

/-- Every addition of a chain takes three levels: the node, its kind and its operands. -/
theorem le_depth_chain (first : Expr) (rest : List Expr) :
    first.toJson.depth + 3 * rest.length ≤ (chain first rest).toJson.depth := by
  induction rest generalizing first with
  | nil => exact Nat.le_refl _
  | cons second rest ih =>
    have hrest := ih (.ofForm (.binary .add first second))
    have hstep : chain first (second :: rest) = chain (.ofForm (.binary .add first second)) rest :=
      rfl
    rw [Expr.depth_toJson_binary] at hrest
    rw [hstep, List.length_cons]
    omega

theorem exists_chain_eq_ofForm (first second : Expr) (rest : List Expr) :
    ∃ form, chain first (second :: rest) = .ofForm form := by
  induction rest generalizing first second with
  | nil => exact ⟨.binary .add first second, rfl⟩
  | cons third rest ih => exact ih (.ofForm (.binary .add first second)) third

/-- The more arguments a call has, the deeper its chain, whatever the arguments are. -/
theorem lt_depth_of_recover? {method : Method} {call result : Expr}
    (h : recover? method call = some result) :
    3 * call.arguments.length < result.toJson.depth + 3 := by
  unfold recover? at h
  split at h
  · rename_i first second rest harguments
    split at h
    · obtain ⟨form, hchain⟩ := exists_chain_eq_ofForm first second rest
      have hdepth := le_depth_chain first (second :: rest)
      have hfirst := first.depth_toJson_pos
      cases h
      rw [hchain, Expr.ofForm, Expr.depth_toJson_mk, List.length_cons] at hdepth
      rw [harguments, hchain, Expr.ofForm, Expr.depth_toJson_mk, List.length_cons, List.length_cons]
      simp only [List.map_nil, Json.unlessEmpty, List.isEmpty_nil, if_true, Json.depthOfFields]
        at hdepth ⊢
      omega
    · cases h
  · cases h

end Concatenation

namespace Stmt

theorem read?_printed {s : Stmt} (reads : (Tree.stmt s).ReadsBack) :
    Serialized.read? (s.toJson.pretty ++ "\n") =
      Json.within Serialized.nestingLimit s.toJson.depth s := by
  have hwritable : s.toJson.IsWritable :=
    s.isWritable_toJson fun root hroot => Expr.isWritable_toJson (reads.root hroot)
  have hfinite : ∀ root ∈ s.allExprs, root.2.RoundTrips .text := by
    intro root hroot
    have hevery : Expr.Every (fun _ e => e.form.isFinite = true) root.1 root.2 :=
      fun node hnode => (reads.root hroot node hnode).isFinite
    exact Expr.ofJson?_toJson .text hevery
  rw [Serialized.read?, JsonReader.read_pretty hwritable, Option.bind_some]
  exact s.ofJson?_toJson .text hfinite Serialized.nestingLimit

end Stmt

namespace CommandLine

theorem readText?_toUTF8 {files : FileSystem} {file text : String}
    (saved : files file = some text.toUTF8) : readText? files file = some text := by
  have hvalid : text.toUTF8.IsValidUTF8 := text.isValidUTF8
  rw [readText?, saved, Option.bind_some, String.fromUTF8?, dif_pos hvalid]
  rfl

/-- What becomes of a printed tree that is loaded again. -/
theorem loadTree_treeText {tree : Stmt} (reads : (Tree.stmt tree).ReadsBack) {files : FileSystem}
    {file : String} (saved : files file = some (treeText true tree).toUTF8) :
    loadTree files file =
      if tree.toJson.depth ≤ Serialized.nestingLimit then .ok tree else .error (.parseTree file) := by
  have hread : Serialized.read? (treeText true tree) =
      Json.within Serialized.nestingLimit tree.toJson.depth tree := Stmt.read?_printed reads
  by_cases hdepth : tree.toJson.depth ≤ Serialized.nestingLimit
  · rw [Json.within, if_pos hdepth] at hread
    simp only [loadTree, readText?_toUTF8 saved, hread, if_pos hdepth]
  · rw [Json.within, if_neg hdepth] at hread
    simp only [loadTree, readText?_toUTF8 saved, hread, if_neg hdepth]

theorem execute_run {files : FileSystem} {options : Options} {file : String} {settings : Settings}
    {tree : Stmt} (hsettings : loadSettings files options = .ok settings)
    (htree : loadTree files file = .ok tree) (json : Bool) :
    execute files ⟨.run file json, options⟩ =
      .ok (treeText json (tree.recover settings (spelling settings))) := by
  rw [execute, hsettings]
  show (loadTree files file).bind _ = _
  rw [htree]
  rfl

/-- The JSON that a run prints is loaded as the recovered tree where it does not nest too
deeply, and is rejected otherwise. -/
theorem loadTree_of_execute {files : FileSystem} {options : Options} {file : String}
    {settings : Settings} {tree : Stmt} (hsettings : loadSettings files options = .ok settings)
    (htree : loadTree files file = .ok tree) (reads : (Tree.stmt tree).ReadsBack) :
    ∃ text, execute files ⟨.run file true, options⟩ = .ok text ∧
      ∀ (files' : FileSystem) (file' : String), files' file' = some text.toUTF8 →
        loadTree files' file' =
          if (tree.recover settings (spelling settings)).toJson.depth ≤ Serialized.nestingLimit then
            .ok (tree.recover settings (spelling settings))
          else .error (.parseTree file') :=
  ⟨_, execute_run hsettings htree true, fun _ _ saved =>
    loadTree_treeText (reads.recover settings (spelling settings)) saved⟩

/-- `Concat("", …, "", 0.5)` with that many strings. -/
def concatenation (count : Nat) : Stmt :=
  .expr (.staticCall (.ofName (.builtin .string) "Concat")
    (List.replicate count (.ofForm (.literal (.string ""))) ++
      [.ofForm (.literal (.float 0.5))]))

/-- A file system in which every file holds the JSON of the tree. -/
def saved (tree : Stmt) : FileSystem := fun _ => some (treeText true tree).toUTF8

theorem loadTree_saved {tree : Stmt} (reads : (Tree.stmt tree).ReadsBack)
    (hdepth : tree.toJson.depth ≤ Serialized.nestingLimit) (file : String) :
    loadTree (saved tree) file = .ok tree := by
  rw [loadTree_treeText reads rfl, if_pos hdepth]

theorem readsBack_half : FloatText.ReadsBack 0.5 := by
  have hfinite : (0.5 : Float).isFinite = true := by decide +kernel
  have htext : FloatText.json 0.5 = "0.5" := by decide +kernel
  have hread : JsonReader.read "0.5" = (JsonReader.scale 5 (-1)).map .float := by rfl
  have hscale : JsonReader.scale 5 (-1) = some 0.5 := by decide +kernel
  refine ⟨hfinite, ?_⟩
  rw [htext, hread, hscale]
  rfl

theorem readsBack_concatenation (count : Nat) : (Tree.stmt (concatenation count)).ReadsBack := by
  have hliteral : ∀ {value : Literal} (role : Role), value.ReadsBack →
      Expr.Every (fun _ e => e.form.ReadsBack) role (.ofForm (.literal value)) :=
    fun role hvalue => (Expr.every_mk role _ _).mpr ⟨hvalue, nofun⟩
  refine (Tree.forall_nodes_iff _ fun _ e => e.form.ReadsBack).mpr
    (List.forall_mem_singleton.mpr ?_)
  refine (Expr.every_mk _ _ _).mpr ⟨trivial, List.forall_mem_cons.mpr
    ⟨?_, List.forall_mem_map.mpr ?_⟩⟩
  · exact (Expr.every_mk _ _ _).mpr ⟨trivial, List.forall_mem_singleton.mpr
      ((Expr.every_mk _ _ _).mpr ⟨trivial, nofun⟩)⟩
  · intro e he
    rcases List.mem_append.mp he with he | he
    · rw [List.eq_of_mem_replicate he]
      exact hliteral _ trivial
    · rw [List.mem_singleton.mp he]
      exact hliteral _ readsBack_half

/-- Forty-two arguments make a chain that can just be loaded again. -/
theorem loadTree_of_execute_concatenation :
    loadSettings (saved (concatenation 41)) ⟨none, none, [], []⟩ = .ok .initial ∧
      loadTree (saved (concatenation 41)) "tree.json" = .ok (concatenation 41) ∧
      (Tree.stmt (concatenation 41)).ReadsBack ∧
      ∃ text, execute (saved (concatenation 41))
          ⟨.run "tree.json" true, ⟨none, none, [], []⟩⟩ = .ok text ∧
        ∀ (files : FileSystem) (file : String), files file = some text.toUTF8 →
          loadTree files file = .ok ((concatenation 41).recover .initial (spelling .initial)) := by
  have hsettings : loadSettings (saved (concatenation 41)) ⟨none, none, [], []⟩ = .ok .initial :=
    rfl
  have reads := readsBack_concatenation 41
  have hdepth : (concatenation 41).toJson.depth ≤ Serialized.nestingLimit := by decide +kernel
  have htree := loadTree_saved reads hdepth "tree.json"
  have hrecovered : ((concatenation 41).recover .initial (spelling .initial)).toJson.depth ≤
      Serialized.nestingLimit := by decide +kernel
  obtain ⟨text, hexecute, hload⟩ := loadTree_of_execute hsettings htree reads
  refine ⟨hsettings, htree, reads, text, hexecute, fun files file hsaved => ?_⟩
  rw [hload files file hsaved, if_pos hrecovered]

/-- With one argument more, the run prints what cannot be loaded. -/
theorem not_loadTree_of_execute_concatenation :
    loadTree (saved (concatenation 42)) "tree.json" = .ok (concatenation 42) ∧
      ∃ text, execute (saved (concatenation 42))
          ⟨.run "tree.json" true, ⟨none, none, [], []⟩⟩ = .ok text ∧
        loadTree (fun _ => some text.toUTF8) "tree.json" = .error (.parseTree "tree.json") := by
  have reads := readsBack_concatenation 42
  have hdepth : (concatenation 42).toJson.depth ≤ Serialized.nestingLimit := by decide +kernel
  have htree := loadTree_saved reads hdepth "tree.json"
  have hrecovered : ¬ ((concatenation 42).recover .initial (spelling .initial)).toJson.depth ≤
      Serialized.nestingLimit := by decide +kernel
  refine ⟨htree, _, execute_run rfl htree true, ?_⟩
  rw [loadTree_treeText (reads.recover .initial (spelling .initial)) rfl, if_neg hrecovered]

end CommandLine

end OperatorRecovery
