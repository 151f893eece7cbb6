import SqlCompose.Text.CaseTable

/-! # Letter case — upper and lower case of whole strings

    Case is that of the Unicode standard, without any language's own rules:

    * a letter may turn into several (`ß` has the upper case `SS`);
    * the capital sigma turns into the final form `ς` at the end of a word, that is after a cased
      letter and not before one, with the ignorable characters between looked through. -/

namespace SqlCompose.Text

/-! ## One letter -/

/-- The shift of the first run that holds `n`. -/
def shiftIn (n : Nat) : List (Nat × Nat × Nat × Int) → Option Int
  | [] => none
  | (first, last, step, shift) :: rest =>
    if first ≤ n && n ≤ last && (n - first) % step == 0 then some shift else shiftIn n rest

/-- The letter a run table sends `c` to; `c` itself if it is in no run. -/
def mapped (runs : List (Nat × Nat × Nat × Int)) (c : Char) : Char :=
  match shiftIn c.toNat runs with
  | some shift => Char.ofNat (c.toNat + shift).toNat
  | none => c

/-- Whether `c` lies in one of the ranges. -/
def within (ranges : List (Nat × Nat)) (c : Char) : Bool :=
  ranges.any fun (first, last) => first ≤ c.toNat && c.toNat ≤ last

/-- The upper case of one letter, which may be several letters. -/
def upperLetters (c : Char) : List Char :=
  match upperExpansions.lookup c.toNat with
  | some codes => codes.map Char.ofNat
  | none => [mapped upperRuns c]

/-- The lower case of one letter away from the sigma rule. -/
def lowerLetters (c : Char) : List Char :=
  if c.toNat == 0x130 then ['i', Char.ofNat 0x307] else [mapped lowerRuns c]

/-! ## The final sigma -/

/-- Whether the nearest character that is not ignorable has case. -/
def reachesCased (cs : List Char) : Bool :=
  match cs.dropWhile (within ignorableRanges) with
  | c :: _ => within casedRanges c
  | [] => false

/-- Lower-cases `rest`, with the letters before it in `before`, nearest first. -/
def lowerFrom (before : List Char) : List Char → List Char
  | [] => []
  | c :: rest =>
    let letters :=
      if c.toNat == 0x3A3 then
        if reachesCased before && !reachesCased rest then [Char.ofNat 0x3C2]
        else [Char.ofNat 0x3C3]
      else lowerLetters c
    letters ++ lowerFrom (c :: before) rest

/-! ## Whole strings -/

/-- The upper case of a string. -/
def upper (s : String) : String :=
  String.ofList (s.toList.flatMap upperLetters)

/-- The lower case of a string. -/
def lower (s : String) : String :=
  String.ofList (lowerFrom [] s.toList)

end SqlCompose.Text
