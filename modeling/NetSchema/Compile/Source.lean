import NetSchema.Log
import NetSchema.OrderedMap
import NetSchema.Scene.Descriptor

/-!
# Where descriptors come from

A source gives the text of a descriptor by its path.  Many paths may lead to one text, but there are
only finitely many texts, hence finitely many paths that some descriptor mentions as an instance.
-/

namespace NetSchema

structure Source where
  load : String → Option String
  /-- What is logged when a path is loaded. -/
  notes : String → List LogRecord := fun _ => []
  texts : List String
  load_mem : ∀ {path text : String}, load path = some text → text ∈ texts

namespace Source

/-- Descriptors by path, all of them in memory. -/
def ofFiles (files : OrderedMap String String) : Source where
  load := files.get?
  texts := files.values
  load_mem := OrderedMap.mem_values_of_get?

/-- The paths that the nodes of a text instance, if the text is a descriptor. -/
def instancesIn (text : String) : List String :=
  match Descriptor.parse text with
  | .ok d => d.nodes.filterMap SceneNode.instance?
  | .error _ => []

/-- All paths that descriptors of the source mention. -/
def mentions (s : Source) : List String := s.texts.flatMap instancesIn

theorem mem_mentions {s : Source} {path text inst : String} {d : Descriptor} {n : SceneNode}
    (hl : s.load path = some text) (hd : Descriptor.parse text = .ok d) (hn : n ∈ d.nodes)
    (hi : n.instance? = some inst) : inst ∈ s.mentions := by
  refine List.mem_flatMap.2 ⟨text, s.load_mem hl, ?_⟩
  rw [instancesIn, hd]
  exact List.mem_filterMap.2 ⟨n, hn, hi⟩

end Source

end NetSchema
