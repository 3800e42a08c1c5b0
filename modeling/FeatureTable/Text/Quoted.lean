namespace FeatureTable.Text

def escapedChar (c : Char) : List Char :=
  if c = '"' then ['\\', '"']
  else if c = '\\' then ['\\', '\\']
  else if c = '\n' then ['\\', 'n']
  else if c = '\r' then ['\\', 'r']
  else if c = '\t' then ['\\', 't']
  else [c]

def quoted (text : String) : String :=
  String.ofList ('"' :: (text.toList.map escapedChar).flatten ++ ['"'])

end FeatureTable.Text
