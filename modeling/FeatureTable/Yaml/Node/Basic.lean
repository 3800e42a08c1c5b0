import FeatureTable.Yaml.Tag
import FeatureTable.Yaml.Token.Basic

namespace FeatureTable.Yaml

/-- A document as it is written: every node with its anchor and its tag, if it has them. -/
inductive Node (α : Type) where
  | alias (target : α)
  | scalar (anchor : Option α) (tag : Option Tag) (text : String) (style : Style)
  | sequence (anchor : Option α) (tag : Option Tag) (items : List (Node α))
  | mapping (anchor : Option α) (tag : Option Tag) (entries : List (Node α × Node α))
deriving Repr, Inhabited

def Node.empty : Node α :=
  .scalar none none "" .plain

end FeatureTable.Yaml
