import ContextSets.Digest.Sha256

/-!
# Fingerprints

The fingerprint of a text tells whether it has changed, and that of a set of files whether any of them
has.
-/

namespace ContextSets.Fingerprint

/-- The fingerprint of a text. -/
def ofText (text : String) : String :=
  Digest.sha256Hex text

/-- Members are ordered by path and then by fingerprint. -/
def memberPrecedes (a b : String × String) : Bool :=
  a.1 < b.1 || (a.1 == b.1 && a.2 ≤ b.2)

/-- A path and a fingerprint as one record. -/
def record (member : String × String) : String :=
  member.1 ++ "\x00" ++ member.2 ++ "\n"

/-- The text over which the fingerprint of a set is taken: its records in order. -/
def setText (members : List (String × String)) : String :=
  String.join ((members.mergeSort memberPrecedes).map record)

/-- The fingerprint of a set of files, given their paths and fingerprints in any order. -/
def ofSet (members : List (String × String)) : String :=
  Digest.sha256Hex (setText members)

end ContextSets.Fingerprint
