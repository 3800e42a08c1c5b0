namespace FeatureTable.Text

/-- The bytes of a text without the mark of byte order that may open it. -/
def dropByteOrderMark : List UInt8 → List UInt8
  | 0xEF :: 0xBB :: 0xBF :: rest => rest
  | bytes => bytes

end FeatureTable.Text
