import Gateway.Bytes.Hex

/-!
# Identifiers of sixteen bytes

Four spellings name the same bytes: thirty-two digits alone, the same digits in five
groups joined by hyphens, and that form in braces or behind its scheme, which may be in
any case of its letters.
-/

namespace Gateway.Uuid

/-- The places of the hyphens in the grouped form. -/
def hyphens : List Nat := [8, 13, 18, 23]

/-- The bytes of the grouped form: hyphens exactly at their places, digits elsewhere. -/
def decodeGrouped (cs : List Char) : Option (List UInt8) :=
  let marked := cs.zipIdx
  if cs.length = 36 && marked.all (fun p => (p.1 = '-') == hyphens.contains p.2) then
    Hex.decode (cs.filter (· ≠ '-'))
  else none

/-- The scheme of the longest spelling. -/
def scheme : List Char := "urn:uuid:".toList

/-- The bytes of an identifier in any of its spellings. -/
def decode (cs : List Char) : Option (List UInt8) :=
  if cs.length = 32 then Hex.decode cs
  else if cs.length = 38 && cs.head? = some '{' && cs.getLast? = some '}' then
    decodeGrouped ((cs.drop 1).take 36)
  else if cs.length = 45 && (cs.take 9).map Char.toLower = scheme then
    decodeGrouped (cs.drop 9)
  else decodeGrouped cs

end Gateway.Uuid
