import NetSchema.ByteId
import NetSchema.Scene.Error

/-!
# Why a compilation fails

One constructor for each cause, and the message that reports it.
-/

namespace NetSchema

inductive SchemaError where
  /-- `referrer` is the scene and the node that instance the missing descriptor. -/
  | missingDescriptor (path : String) (referrer : Option String)
  | parse (path : String) (cause : SceneError)
  | sceneCapacity (path : String)
  | propertyCapacity (scene nodePath member : String)
  | functionCapacity (scene nodePath member : String)
  | staticNodeCapacity (scene nodePath : String)
  | duplicateNodePath (scene nodePath : String)
  /-- `chain` leads from `path` along instances back to it. -/
  | circularInstancing (path : String) (chain : List String)
  deriving DecidableEq, Repr

namespace SchemaError

def limitText (kind : IdKind) : String := toString kind.limit

def message : SchemaError → String
  | missingDescriptor path referrer =>
    "scene descriptor `" ++ path ++ "` not found" ++
      match referrer with
      | some r => " (instanced from " ++ r ++ ")"
      | none => ""
  | parse path cause => "failed to parse scene `" ++ path ++ "`: " ++ cause.message
  | sceneCapacity path =>
    "cannot register network scene `" ++ path ++ "`: limit of " ++ limitText .scene ++
      " scenes reached"
  | propertyCapacity scene nodePath member =>
    "scene `" ++ scene ++ "` exceeds " ++ limitText .property ++ " network properties at `" ++
      nodePath ++ "`." ++ member
  | functionCapacity scene nodePath member =>
    "scene `" ++ scene ++ "` exceeds " ++ limitText .function ++ " network functions at `" ++
      nodePath ++ "`." ++ member
  | staticNodeCapacity scene nodePath =>
    "scene `" ++ scene ++ "` exceeds " ++ limitText .staticNode ++ " static network nodes at `" ++
      nodePath ++ "`"
  | duplicateNodePath scene nodePath =>
    "scene `" ++ scene ++ "` has more than one network node at `" ++ nodePath ++ "`"
  | circularInstancing path chain =>
    "circular scene instancing at `" ++ path ++ "`: " ++ String.intercalate " -> " chain

end SchemaError

end NetSchema
