namespace FeatureTable.Yaml

inductive Error where
  | forbiddenCharacter
  | unexpectedCharacter
  | unclosedScalar
  | malformedEscape
  | malformedIndentation
  | malformedDirective
  | malformedAnchor
  | malformedTag
  | misplacedIndicator
  | missingColon
  | unexpectedToken
  | undefinedHandle
  | unknownAnchor
  | severalDocuments
  | nestedTooDeeply
  | tooManyAliases
  | duplicateKey
  | malformedScalar
  | unexpectedNode
  | missingField (name : String)
deriving Repr, DecidableEq

def Error.message : Error → String
  | forbiddenCharacter => "control characters are not allowed"
  | unexpectedCharacter => "found character that cannot start any token"
  | unclosedScalar => "found unexpected end of stream"
  | malformedEscape => "found unknown escape character"
  | malformedIndentation => "found a tab character where indentation is expected"
  | malformedDirective => "found malformed directive"
  | malformedAnchor => "did not find expected alphabetic or numeric character"
  | malformedTag => "did not find expected tag"
  | misplacedIndicator => "indicator is not allowed in this context"
  | missingColon => "could not find expected ':'"
  | unexpectedToken => "did not find expected node content"
  | undefinedHandle => "found undefined tag handle"
  | unknownAnchor => "unknown anchor"
  | severalDocuments => "more than one document"
  | nestedTooDeeply => "recursion limit exceeded"
  | tooManyAliases => "repetition limit exceeded"
  | duplicateKey => "duplicate entry"
  | malformedScalar => "malformed scalar"
  | unexpectedNode => "invalid type"
  | missingField name => "missing field `" ++ name ++ "`"

end FeatureTable.Yaml
