import NetSchema.Class.Table

/-!
# What a compilation is told

The classes of the project, and the names that the compiler singles out.
-/

namespace NetSchema

structure CompilerConfig where
  /-- A scene whose root script derives from this type is a network scene. -/
  networkBaseType : String := "NetworkNode3D"
  /-- The property that only the root of a scene keeps. -/
  identityProperty : String := "NetworkId"
  classifier : ClassifierConfig := {}
  networkSerializerInterface : String := "INetworkSerializable"
  bsonSerializerInterface : String := "IBsonSerializable"
  deriving DecidableEq, Repr

namespace CompilerConfig

/-- Changes the base type, which is also the type that the classifier takes for a node. -/
def withBaseType (c : CompilerConfig) (baseType : String) : CompilerConfig :=
  { c with
    networkBaseType := baseType
    classifier := { c.classifier with networkNodeType := baseType } }

/-- All six names. -/
def names (c : CompilerConfig) : List String :=
  [c.networkBaseType, c.identityProperty, c.classifier.asyncPeerValueType,
   c.classifier.networkNodeType, c.networkSerializerInterface, c.bsonSerializerInterface]

end CompilerConfig

/-- What decides which nodes and members go onto the network. -/
structure Rules where
  classes : ClassTable
  config : CompilerConfig := {}

end NetSchema
