import NetSchema.Compile.Draft
import NetSchema.Compile.NetworkClass
import NetSchema.Compile.Source
import NetSchema.Compile.State

/-!
# Compiling scenes

A scene is compiled by walking its nodes in order.  A network node is collected with its members; of
any other node the instanced scene is compiled and merged, unless that is a network scene itself.
Each descriptor is compiled once, and meeting one that is still under way is an error.  The walk
ends because the descriptors under way are all different and only finitely many are mentioned.
-/

namespace NetSchema

structure Compiler where
  source : Source
  rules : Rules

namespace Compiler

/-- Paths that hold every instance of their descriptors, so a walk that starts in them stays in
them. -/
structure Territory (source : Source) where
  paths : List String
  closed : ∀ {path text inst : String} {d : Descriptor} {n : SceneNode},
    source.load path = some text → Descriptor.parse text = .ok d → n ∈ d.nodes →
      n.instance? = some inst → inst ∈ paths

/-- A root and all that the source mentions. -/
def territory (source : Source) (root : String) : Territory source where
  paths := root :: source.mentions
  closed hl hd hn hi := List.mem_cons_of_mem _ (Source.mem_mentions hl hd hn hi)

def compiledNote (path : String) (d : SceneData) : LogRecord :=
  ⟨.debug, .compiler,
    "compiled `" ++ path ++ "`: " ++ toString d.staticNodes.length ++ " static node(s), " ++
      toString d.propertyCount ++ " propert(ies), " ++ toString d.functionCount ++ " function(s)"⟩

mutual

/-- Compiles the descriptor at `path`.  `outer` holds the descriptors it is compiled for, so that
the recursion is seen to end. -/
def enter (c : Compiler) (t : Territory c.source) (outer : List String) (referrer : Option String)
    (path : String) (hp : path ∈ t.paths) (s : CompileState) :
    Except SchemaError SceneData × CompileState :=
  match s.memo.completed? path with
  | some d => (.ok d, s.note [⟨.debug, .compiler, "cache hit `" ++ path ++ "`"⟩])
  | none =>
    if hs : s.memo.isPending path ∨ path ∈ outer then
      (.error (.circularInstancing path (s.chainTo path)), s)
    else
      match build c t outer referrer path hp (fun h => hs (.inr h)) (s.begin path) with
      | (.ok d, s') => (.ok d, s'.finish path d)
      | (.error e, s') => (.error e, s'.abandon path)
termination_by (unvisited t.paths outer, 1, 0)

/-- Loads, reads and walks the descriptor at `path`. -/
def build (c : Compiler) (t : Territory c.source) (outer : List String) (referrer : Option String)
    (path : String) (hp : path ∈ t.paths) (hs : path ∉ outer) (s : CompileState) :
    Except SchemaError SceneData × CompileState :=
  let s := s.note (c.source.notes path)
  match hl : c.source.load path with
  | none => (.error (.missingDescriptor path referrer), s)
  | some text =>
    let s := s.countParse
    match hd : Descriptor.parse text with
    | .error e => (.error (.parse path e), s)
    | .ok d =>
      let root := d.rootNode?
      let s := s.note ((root.map c.rules.networkClassNotes).getD [])
      match s.number path (root >>= c.rules.networkClass?).isSome with
      | (.error e, s) => (.error e, s)
      | (.ok sceneId, s) =>
        have := unvisited_append_lt hp hs
        match walk c t (outer ++ [path]) path d.nodes (fun n hn i hi => t.closed hl hd hn hi)
            (.start path sceneId) s with
        | (.error e, s) => (.error e, s)
        | (.ok draft, s) => (.ok draft.data, s.note [compiledNote path draft.data])
termination_by (unvisited t.paths outer, 0, 0)

/-- Adds the nodes of the descriptor at `path` to its draft. -/
def walk (c : Compiler) (t : Territory c.source) (outer : List String) (path : String)
    (nodes : List SceneNode)
    (hn : ∀ n ∈ nodes, ∀ inst, n.instance? = some inst → inst ∈ t.paths) (draft : Draft)
    (s : CompileState) : Except SchemaError Draft × CompileState :=
  match nodes with
  | [] => (.ok draft, s)
  | n :: rest =>
    have hr := fun m hm => hn m (List.mem_cons_of_mem _ hm)
    let s := s.note (c.rules.networkClassNotes n)
    match c.rules.networkClass? n with
    | some cls =>
      let o := draft.addNode c.rules n cls
      let s := s.absorb o.findings
      match o.result with
      | .error e => (.error e, s)
      | .ok draft => walk c t outer path rest hr draft s
    | none =>
      match hi : n.instance? with
      | none => walk c t outer path rest hr draft s
      | some inst =>
        match enter c t outer (some (path ++ ":" ++ n.path)) inst
            (hn n (List.mem_cons_self ..) inst hi) s with
        | (.error e, s) => (.error e, s)
        | (.ok child, s) =>
          if child.isNetworkScene then
            let note := Draft.nodeNote ⟨path, n.path⟩
              ("`" ++ inst ++ "` is a network scene, not merged")
            walk c t outer path rest hr draft (s.note [note])
          else
            match draft.merge n.path child with
            | .error e => (.error e, s)
            | .ok draft => walk c t outer path rest hr draft s
termination_by (unvisited t.paths outer, 2, nodes.length)

end

/-- Compiles one descriptor in the state that earlier calls have left. -/
def compile (c : Compiler) (path : String) (s : CompileState) :
    Except SchemaError SceneData × CompileState :=
  c.enter (territory c.source path) [] none path (List.mem_cons_self ..) s

/-! ## Runs -/

structure CompileOutput where
  registry : Registry
  diagnostics : List Diagnostic
  deriving DecidableEq, Repr

/-- The complaint about a root that is not a network scene. -/
def notNetworkScene (c : Compiler) (root : String) : Diagnostic where
  kind := .notNetworkScene
  scene := root
  message := "root node does not derive from `" ++ c.rules.config.networkBaseType ++
    "`; nothing registered"

/-- Compiles roots in order up to the first that fails. -/
def compileRoots (c : Compiler) :
    List String → CompileState → Except SchemaError Unit × CompileState
  | [], s => (.ok (), s)
  | root :: roots, s =>
    match c.compile root s with
    | (.error e, s) => (.error e, s)
    | (.ok d, s) =>
      let s := if d.isNetworkScene then s else s.absorb [.diagnostic (c.notNetworkScene root)]
      c.compileRoots roots s

def summaryNote (roots : List String) (s : CompileState) : LogRecord :=
  ⟨.info, .compiler,
    "compiled " ++ toString s.registry.sceneCount ++ " network scene(s) from " ++
      toString roots.length ++ " root(s), " ++ toString s.memo.parses ++
      " descriptor(s) parsed, " ++ toString s.diagnostics.length ++ " diagnostic(s)"⟩

/-- Compiles all roots from an empty state. -/
def run (c : Compiler) (roots : List String) (s : CompileState) :
    Except SchemaError CompileOutput × CompileState :=
  match c.compileRoots roots s.reset with
  | (.error e, s) => (.error e, s)
  | (.ok (), s) => (.ok ⟨s.registry, s.diagnostics⟩, s.note [summaryNote roots s])

end Compiler

end NetSchema
