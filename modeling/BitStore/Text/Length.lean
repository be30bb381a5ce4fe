namespace BitStore

/-- The number of bytes that a text takes in UTF-8. -/
def utf8Length (text : List Char) : Nat :=
  (text.map Char.utf8Size).foldl Nat.add 0

end BitStore
