import SqlCompose.Proofs.Criterion
import SqlCompose.Proofs.FailedRenders
import SqlCompose.Proofs.Numerals

/-! # Path texts — when two paths into a JSON column are written the same

    A path is written in one of two notations: as a chain of arrows, its names between quotes, or as
    one text that starts at `$`, its names behind dots and its numbers in brackets. In neither of
    them is anything in a name protected, so a name may go on as the notation does. Paths whose
    names do not are told apart by their texts, in either notation. With dots every path is written
    as exactly one of those is: as the one that its text is read as.

    * `PathStep.Clear` — paths whose names do not go on as the notation does.
    * `PathStep.dollarChars_inj`, `PathStep.arrowChars_inj` — clear paths are told apart.
    * `PathStep.exists_clear` — with dots, every text is that of a clear path.
    * `PathStep.arrowChars_merged` — with arrows, two names and one that holds both of them.
    * `Term.paths_apart` — the theorem. -/

namespace SqlCompose

open Draft

namespace PathStep

/-! ## Notations -/

/-- The characters of a path behind the `$`. -/
def dollarChars (path : List PathStep) : List Char :=
  path.flatMap fun step => step.dollarText.toList

/-- The characters of a path of arrows. -/
def arrowChars : List PathStep → List Char
  | [] => []
  | [step] => '-' :: '>' :: '>' :: step.arrowText.toList
  | step :: rest => '-' :: '>' :: (step.arrowText.toList ++ arrowChars rest)

/-- What ends a name in front of an arrow. -/
def nameEnd : List Char := ['\'', '-', '>']

/-- Whether no name in a path goes on as a path with dots does: it has no dot in it and does not end
    as a number in brackets does. -/
def DollarClear (path : List PathStep) : Prop :=
  ∀ name, key name ∈ path → '.' ∉ name.toList ∧ ∀ n, ¬ (index n).dollarText.toList <:+ name.toList

/-- Whether no name in a path goes on as a path of arrows does: none in front of an arrow has in it
    a quote with an arrow behind it. -/
def ArrowClear (path : List PathStep) : Prop :=
  ∀ name, key name ∈ path.dropLast → ¬ nameEnd <:+: name.toList

/-- A name is written behind a point. -/
theorem dollarText_key (name : String) : (key name).dollarText.toList = '.' :: name.toList := by
  rw [dollarText, String.toList_append]
  rfl

/-- A number is written between brackets. -/
theorem dollarText_index (n : Int64) :
    (index n).dollarText.toList = '[' :: ((toString n.toInt).toList ++ [']']) := by
  rw [dollarText, String.toList_append, String.toList_append]
  rfl

/-- A name in a path of arrows stands between apostrophes. -/
theorem arrowText_key (name : String) :
    (key name).arrowText.toList = '\'' :: (name.toList ++ ['\'']) := by
  rw [arrowText, String.toList_append, String.toList_append]
  rfl

/-- A path starts at the document. -/
theorem dollarPath_toList (path : List PathStep) :
    (dollarPath path).toList = '$' :: dollarChars path := by
  rw [dollarPath, String.toList_append, String.toList_join, List.flatMap_map]
  rfl

/-- A path of arrows is written as its characters. -/
theorem texts_arrows (ctx : Context) (path : List PathStep) :
    (Token.texts ctx (arrows path)).toList = arrowChars path := by
  fun_induction arrows path with
  | case1 => rfl
  | case2 step =>
    show (String.join ["->>" ++ step.arrowText]).toList = _
    rw [String.join_cons, String.join_nil, String.append_empty, String.toList_append]
    rfl
  | case3 step rest hrest ih =>
    show (String.join (("->" ++ step.arrowText) :: _)).toList = _
    rw [String.join_cons, String.toList_append, String.toList_append, arrowChars]
    · exact congrArg ('-' :: '>' :: step.arrowText.toList ++ ·) ih
    · exact hrest

/-! ## Dots and brackets -/

@[simp] theorem dollarChars_nil : dollarChars [] = [] := rfl

@[simp] theorem dollarChars_key (name : String) (rest : List PathStep) :
    dollarChars (key name :: rest) = '.' :: (name.toList ++ dollarChars rest) := by
  rw [dollarChars, List.flatMap_cons, dollarText_key]
  rfl

@[simp] theorem dollarChars_index (n : Int64) (rest : List PathStep) :
    dollarChars (index n :: rest)
      = '[' :: ((toString n.toInt).toList ++ ']' :: dollarChars rest) := by
  rw [dollarChars, List.flatMap_cons, dollarText_index, List.cons_append, List.append_assoc]
  rfl

/-- Two paths are written one behind the other. -/
theorem dollarChars_append (path path' : List PathStep) :
    dollarChars (path ++ path') = dollarChars path ++ dollarChars path' := List.flatMap_append

/-- What is behind a name begins with a dot or a bracket. -/
theorem head_dollarChars {path : List PathStep} :
    ∀ c ∈ (dollarChars path).head?, c = '.' ∨ c = '[' := by
  intro c hc
  match path with
  | [] => exact nomatch hc
  | key name :: rest =>
    rw [dollarChars_key] at hc
    exact .inl (Option.some.inj hc).symm
  | index n :: rest =>
    rw [dollarChars_index] at hc
    exact .inr (Option.some.inj hc).symm

/-- No step begins inside of a number in brackets. -/
theorem number_split {n : Int64} {cs more : List Char} (hcs : cs ≠ [])
    (hsplit : (index n).dollarText.toList = cs ++ more)
    (hmore : ∀ c ∈ more.head?, c = '.' ∨ c = '[') : more = [] := by
  obtain ⟨c, cs, rfl⟩ := List.exists_cons_of_ne_nil hcs
  match more with
  | [] => rfl
  | d :: more =>
    have hd := hmore d rfl
    rw [dollarText_index, List.cons_append] at hsplit
    have hmem : d ∈ (toString n.toInt).toList ++ [']'] := by
      rw [(List.cons.inj hsplit).2]
      simp
    have hother : Decimal.isDigit d = true ∨ d = '-' ∨ d = ']' := by
      simpa [or_assoc] using (List.mem_append.mp hmem).imp_left Decimal.digit_or_minus_of_mem
    rcases hd with rfl | rfl <;> exact absurd hother (by decide)

/-- What a longer name has in front of the rest of a path, where a shorter one ends, has a dot in it
    or ends as a number in brackets does. -/
theorem goes_on {path path' : List PathStep} {cs : List Char} (hcs : cs ≠ [])
    (h : cs ++ dollarChars path' = dollarChars path) :
    '.' ∈ cs ∨ ∃ n, (index n).dollarText.toList <:+ cs := by
  induction path generalizing cs with
  | nil => exact absurd (List.append_eq_nil_iff.mp h).1 hcs
  | cons step path ih =>
    cases step with
    | key name =>
      obtain ⟨c, cs, rfl⟩ := List.exists_cons_of_ne_nil hcs
      rw [dollarChars_key] at h
      exact .inl ((List.cons.inj h).1 ▸ List.mem_cons_self)
    | index n =>
      have h : cs ++ dollarChars path' = (index n).dollarText.toList ++ dollarChars path := h
      -- either `cs` ends within the index, or the index within `cs`
      obtain ⟨more, hsplit, hmore⟩ | ⟨more, hsplit, hmore⟩ := List.append_eq_append_iff.mp h
      · have hnone : more = [] := number_split hcs hsplit fun c hc =>
          head_dollarChars c (by rw [hmore, List.head?_append, hc]; rfl)
        rw [hnone, List.append_nil] at hsplit
        exact .inr ⟨n, hsplit ▸ List.suffix_refl _⟩
      · by_cases hempty : more = []
        · rw [hempty, List.append_nil] at hsplit
          exact .inr ⟨n, hsplit ▸ List.suffix_refl _⟩
        · rw [hsplit]
          rcases ih hempty hmore.symm with hdot | ⟨m, hm⟩
          · exact .inl (List.mem_append_right _ hdot)
          · exact .inr ⟨m, hm.trans (List.suffix_append _ _)⟩

/-- Where two paths begin with names and have one text, a name that does not go on is no longer than
    the other one. -/
theorem more_eq_nil {name : String} {path path' : List PathStep} {cs more : List Char}
    (hdot : '.' ∉ name.toList) (hindex : ∀ n, ¬ (index n).dollarText.toList <:+ name.toList)
    (hname : name.toList = cs ++ more) (h : dollarChars path = more ++ dollarChars path') :
    more = [] := by
  by_contra hmore
  rcases goes_on hmore h.symm with hmem | ⟨n, hn⟩
  · exact hdot (hname ▸ List.mem_append_right _ hmem)
  · exact hindex n (hname ▸ hn.trans (List.suffix_append _ _))

/-- Behind the first step a path is as clear as it was. -/
theorem DollarClear.tail {step : PathStep} {rest : List PathStep}
    (h : DollarClear (step :: rest)) : DollarClear rest :=
  fun name hname => h name (List.mem_cons_of_mem _ hname)

/-- **Dots.** Paths none of whose names goes on as a path does are told apart by their texts. -/
theorem dollarChars_inj : {path path' : List PathStep} → DollarClear path → DollarClear path' →
    dollarChars path = dollarChars path' → path = path'
  | [], [], _, _, _ => rfl
  | [], key _ :: _, _, _, h | [], index _ :: _, _, _, h => by simp at h
  | key _ :: _, [], _, _, h | index _ :: _, [], _, _, h => by simp at h
  | key _ :: _, index _ :: _, _, _, h | index _ :: _, key _ :: _, _, _, h => by simp at h
  | key name :: rest, key name' :: rest', hclear, hclear', h => by
    rw [dollarChars_key, dollarChars_key] at h
    -- one name is a prefix of the other, and what is left over would have to be an index or a dot
    have hsame : name.toList = name'.toList ∧ dollarChars rest = dollarChars rest' := by
      obtain ⟨more, hname, hrest⟩ | ⟨more, hname, hrest⟩ :=
        List.append_eq_append_iff.mp (List.cons.inj h).2
      · obtain ⟨hdot, hindex⟩ := hclear' name' List.mem_cons_self
        obtain rfl := more_eq_nil hdot hindex hname hrest
        exact ⟨by rw [hname, List.append_nil], hrest⟩
      · obtain ⟨hdot, hindex⟩ := hclear name List.mem_cons_self
        obtain rfl := more_eq_nil hdot hindex hname hrest
        exact ⟨by rw [hname, List.append_nil], hrest.symm⟩
    rw [String.toList_inj.mp hsame.1, dollarChars_inj hclear.tail hclear'.tail hsame.2]
  | index n :: rest, index n' :: rest', hclear, hclear', h => by
    rw [dollarChars_index, dollarChars_index] at h
    have hbracket : ∀ cs : List Char, ∀ c ∈ (']' :: cs).head?, Decimal.isDigit c = false := by
      rintro cs c ⟨⟩
      decide
    obtain ⟨hn, hrest⟩ := Decimal.toString_append_inj (hbracket _) (hbracket _) (List.cons.inj h).2
    rw [Int64.toInt_inj.mp hn, dollarChars_inj hclear.tail hclear'.tail (List.cons.inj hrest).2]

/-- With dots every name is written as a path none of whose names goes on: it is cut at its dots and
    in front of the numbers in brackets that it ends as. -/
theorem exists_clear_name (cs : List Char) :
    ∃ path, DollarClear path ∧ dollarChars path = '.' :: cs := by
  induction hlength : cs.length using Nat.strongRecOn generalizing cs with
  | ind length ih =>
    subst hlength
    -- a dot splits the name in two, an index at the end is cut off, and otherwise it is clear
    by_cases hdot : '.' ∈ cs
    · obtain ⟨front, back, rfl⟩ := List.append_of_mem hdot
      obtain ⟨first, hfirst, hfront⟩ := ih front.length (by simp) front rfl
      obtain ⟨second, hsecond, hback⟩ := ih back.length (by simp; omega) back rfl
      refine ⟨first ++ second, ?_, ?_⟩
      · intro name hname
        exact (List.mem_append.mp hname).elim (hfirst name) (hsecond name)
      · rw [dollarChars_append, hfront, hback]
        rfl
    · by_cases hindex : ∃ n, (index n).dollarText.toList <:+ cs
      · obtain ⟨n, front, rfl⟩ := hindex
        have hshorter : front.length < (front ++ (index n).dollarText.toList).length := by
          rw [dollarText_index]
          simp
        obtain ⟨first, hfirst, hfront⟩ := ih front.length hshorter front rfl
        refine ⟨first ++ [index n], ?_, ?_⟩
        · intro name hname
          exact (List.mem_append.mp hname).elim (hfirst name) (by simp)
        · rw [dollarChars_append, hfront]
          simp [dollarChars]
      · refine ⟨[key (String.ofList cs)], ?_, by simp⟩
        intro name hname
        obtain rfl := key.inj (List.mem_singleton.mp hname)
        rw [String.toList_ofList]
        exact ⟨hdot, fun n hn => hindex ⟨n, hn⟩⟩

/-- With dots every path is written as one none of whose names goes on. -/
theorem exists_clear (path : List PathStep) :
    ∃ clear, DollarClear clear ∧ dollarChars clear = dollarChars path := by
  induction path with
  | nil => exact ⟨[], by simp [DollarClear], rfl⟩
  | cons step rest ih =>
    obtain ⟨behind, hbehind, hrest⟩ := ih
    have hstep : ∃ front, DollarClear front ∧ dollarChars front = step.dollarText.toList := by
      cases step with
      | key name =>
        rw [dollarText_key]
        exact exists_clear_name name.toList
      | index n => exact ⟨[index n], by simp [DollarClear], List.flatMap_singleton ..⟩
    obtain ⟨front, hfront, hchars⟩ := hstep
    refine ⟨front ++ behind, ?_, ?_⟩
    · intro name hname
      exact (List.mem_append.mp hname).elim (hfront name) (hbehind name)
    · rw [dollarChars_append, hchars, hrest]
      rfl

/-! ## Arrows -/

/-- Each step but the last has an arrow of its own behind it. -/
theorem arrowChars_cons (step : PathStep) {rest : List PathStep} (h : rest ≠ []) :
    arrowChars (step :: rest) = '-' :: '>' :: (step.arrowText.toList ++ arrowChars rest) := by
  cases rest with
  | nil => exact absurd rfl h
  | cons next rest => rfl

/-- A path of arrows begins with one. -/
theorem exists_arrow {path : List PathStep} (h : path ≠ []) :
    ∃ cs, arrowChars path = '-' :: '>' :: cs := by
  match path with
  | [step] => exact ⟨_, rfl⟩
  | step :: next :: rest => exact ⟨_, rfl⟩

/-- Where two names stand in front of arrows, one that does not go on is no longer than the other
    one. -/
theorem name_ends {cs more us vs : List Char} (hname : ¬ nameEnd <:+: cs ++ more)
    (h : nameEnd ++ us = more ++ (nameEnd ++ vs)) : more = [] := by
  match more with
  | [] => rfl
  | [_] => simp [nameEnd] at h
  | [_, _] => simp [nameEnd] at h
  | a :: b :: c :: more =>
    obtain ⟨rfl, rfl, rfl, -⟩ : '\'' = a ∧ '-' = b ∧ '>' = c ∧ _ := by simpa [nameEnd] using h
    exact absurd ⟨cs, more, by simp [nameEnd]⟩ hname

/-- A number begins neither as a name nor as the arrow that asks for text. -/
theorem arrowText_index (n : Int64) :
    ∃ c cs, (index n).arrowText.toList = c :: cs ∧ c ≠ '\'' ∧ c ≠ '>' := by
  have hne : (toString n.toInt).toList ≠ [] := by
    rw [Decimal.toString_toList]
    exact List.append_ne_nil_of_right_ne_nil _ Nat.toDigits_ne_nil
  obtain ⟨c, cs, htext⟩ := List.exists_cons_of_ne_nil hne
  refine ⟨c, cs, htext, ?_⟩
  have hc : c ∈ (toString n.toInt).toList := htext ▸ List.mem_cons_self
  rcases Decimal.digit_or_minus_of_mem hc with hdigit | rfl
  · constructor <;> rintro rfl <;> exact absurd hdigit (by decide)
  · decide

/-- The last arrow, which asks for text, is not one in front of a step. -/
theorem arrowText_ne_last (step : PathStep) (us vs : List Char) :
    step.arrowText.toList ++ us ≠ '>' :: vs := by
  intro h
  cases step with
  | key name =>
    rw [arrowText_key] at h
    exact absurd (List.cons.inj h).1 (by decide)
  | index n =>
    obtain ⟨c, cs, htext, -, hc⟩ := arrowText_index n
    rw [htext] at h
    exact hc (List.cons.inj h).1

/-- A name is not written as a number is. -/
theorem arrowText_key_ne_index (name : String) (n : Int64) (us vs : List Char) :
    (key name).arrowText.toList ++ us ≠ (index n).arrowText.toList ++ vs := by
  intro h
  obtain ⟨c, cs, htext, hc, -⟩ := arrowText_index n
  rw [arrowText_key, htext] at h
  exact hc (List.cons.inj h).1.symm

/-- Steps with the same text are the same. -/
theorem arrowText_inj {step step' : PathStep} (h : step.arrowText = step'.arrowText) :
    step = step' := by
  have hchars : step.arrowText.toList ++ [] = step'.arrowText.toList ++ [] := by rw [h]
  match step, step' with
  | key name, key name' =>
    rw [arrowText_key, arrowText_key] at hchars
    have hname : name.toList = name'.toList := by simpa using hchars
    rw [String.toList_inj.mp hname]
  | index n, index n' =>
    have hn := (Decimal.toString_append_inj (by simp) (by simp) hchars).1
    rw [Int64.toInt_inj.mp hn]
  | key name, index n => exact absurd hchars (arrowText_key_ne_index name n _ _)
  | index n, key name => exact absurd hchars.symm (arrowText_key_ne_index name n _ _)

/-- Steps with arrows behind them are told apart, and so is what is behind them. -/
theorem arrowText_append_inj {step step' : PathStep} {us vs : List Char}
    (hstep : ∀ name, step = key name → ¬ nameEnd <:+: name.toList)
    (hstep' : ∀ name, step' = key name → ¬ nameEnd <:+: name.toList)
    (h : step.arrowText.toList ++ '-' :: '>' :: us = step'.arrowText.toList ++ '-' :: '>' :: vs) :
    step = step' ∧ us = vs := by
  -- a name ends at its quote, an index at the first character that is no digit
  match step, step' with
  | key name, key name' =>
    have hkey : ∀ (s : String) cs,
        (key s).arrowText.toList ++ '-' :: '>' :: cs = '\'' :: (s.toList ++ (nameEnd ++ cs)) := by
      simp [arrowText_key, nameEnd]
    rw [hkey, hkey] at h
    obtain ⟨more, hname, hrest⟩ | ⟨more, hname, hrest⟩ :=
      List.append_eq_append_iff.mp (List.cons.inj h).2
    · obtain rfl := name_ends (hname ▸ hstep' name' rfl) hrest
      rw [List.append_nil] at hname
      exact ⟨congrArg key (String.toList_inj.mp hname.symm), List.append_cancel_left hrest⟩
    · obtain rfl := name_ends (hname ▸ hstep name rfl) hrest
      rw [List.append_nil] at hname
      exact ⟨congrArg key (String.toList_inj.mp hname), (List.append_cancel_left hrest).symm⟩
  | index n, index n' =>
    have harrow : ∀ cs : List Char, ∀ c ∈ ('-' :: cs).head?, Decimal.isDigit c = false := by
      rintro cs c ⟨⟩
      decide
    obtain ⟨hn, hrest⟩ := Decimal.toString_append_inj (harrow _) (harrow _) h
    exact ⟨congrArg index (Int64.toInt_inj.mp hn), by simpa using hrest⟩
  | key name, index n => exact absurd h (arrowText_key_ne_index name n _ _)
  | index n, key name => exact absurd h.symm (arrowText_key_ne_index name n _ _)

/-- **Arrows.** Paths none of whose names goes on as a path does are told apart by their texts. -/
theorem arrowChars_inj : {path path' : List PathStep} → ArrowClear path → ArrowClear path' →
    arrowChars path = arrowChars path' → path = path'
  | [], [], _, _, _ => rfl
  | [], step :: rest, _, _, h => by
    obtain ⟨cs, hcs⟩ := exists_arrow (List.cons_ne_nil step rest)
    rw [hcs] at h
    exact nomatch h
  | step :: rest, [], _, _, h => by
    obtain ⟨cs, hcs⟩ := exists_arrow (List.cons_ne_nil step rest)
    rw [hcs] at h
    exact nomatch h
  | [step], [step'], _, _, h => by
    have htext : step.arrowText.toList = step'.arrowText.toList := by simpa [arrowChars] using h
    rw [arrowText_inj (String.toList_inj.mp htext)]
  | [_], step :: _ :: _, _, _, h => by
    have h : '>' :: _ = step.arrowText.toList ++ _ := (List.cons.inj (List.cons.inj h).2).2
    exact absurd h.symm (arrowText_ne_last step _ _)
  | step :: _ :: _, [_], _, _, h => by
    have h : step.arrowText.toList ++ _ = '>' :: _ := (List.cons.inj (List.cons.inj h).2).2
    exact absurd h (arrowText_ne_last step _ _)
  | step :: next :: rest, step' :: next' :: rest', hclear, hclear', h => by
    obtain ⟨us, hus⟩ := exists_arrow (List.cons_ne_nil next rest)
    obtain ⟨vs, hvs⟩ := exists_arrow (List.cons_ne_nil next' rest')
    have h : step.arrowText.toList ++ arrowChars (next :: rest)
        = step'.arrowText.toList ++ arrowChars (next' :: rest') :=
      (List.cons.inj (List.cons.inj h).2).2
    rw [hus, hvs] at h
    obtain ⟨hstep, hrest⟩ := arrowText_append_inj
      (fun name hname => hclear name (hname ▸ List.mem_cons_self))
      (fun name hname => hclear' name (hname ▸ List.mem_cons_self)) h
    have hbehind : arrowChars (next :: rest) = arrowChars (next' :: rest') := by
      rw [hus, hvs, hrest]
    rw [hstep, arrowChars_inj (fun name hname => hclear name (List.mem_cons_of_mem _ hname))
      (fun name hname => hclear' name (List.mem_cons_of_mem _ hname)) hbehind]

/-- Two names in front of more steps are written as one that has the end of a name, an arrow and
    the beginning of a name between them. -/
theorem arrowChars_merged (before : List PathStep) (a b : String) (step : PathStep)
    (behind : List PathStep) :
    arrowChars (before ++ key (a ++ "'->'" ++ b) :: step :: behind)
      = arrowChars (before ++ key a :: key b :: step :: behind) := by
  induction before with
  | nil => simp [arrowChars, arrowText_key]
  | cons first before ih =>
    rw [List.cons_append, List.cons_append, arrowChars_cons first (by simp),
      arrowChars_cons first (by simp), ih]

end PathStep

/-! ## Dialects -/

namespace Dialect

/-- Whether paths start at `$`; if not, they are arrows. -/
def startsAtDollar : Dialect → Bool
  | mysql | sqlite | mssql => true
  | generic | postgres | oracle => false

/-- Whether no name in a path goes on as a path does. -/
def Clear (d : Dialect) (path : List PathStep) : Prop :=
  if d.startsAtDollar then PathStep.DollarClear path else PathStep.ArrowClear path

/-- The part of a text that a path decides. -/
def pathChars (d : Dialect) (path : List PathStep) : List Char :=
  if d.startsAtDollar then PathStep.dollarChars path else PathStep.arrowChars path

/-- **Paths are told apart** by their texts if no name in them goes on as a path does. -/
theorem pathChars_inj {d : Dialect} {path path' : List PathStep} (hclear : d.Clear path)
    (hclear' : d.Clear path') (h : d.pathChars path = d.pathChars path') : path = path' := by
  simp only [Clear, pathChars] at hclear hclear' h
  split at h
  next hdollar =>
    rw [if_pos hdollar] at hclear hclear'
    exact PathStep.dollarChars_inj hclear hclear' h
  next harrow =>
    rw [if_neg harrow] at hclear hclear'
    exact PathStep.arrowChars_inj hclear hclear' h

/-- The tokens in front of a column whose value at a path is asked for. -/
def pathOpening : Dialect → List Token
  | mssql => [.function "JSON_VALUE", .lparen]
  | _ => []

/-- The tokens behind a column whose value at a path is asked for. -/
def pathTokens (d : Dialect) (path : List PathStep) : List Token :=
  match d with
  | mysql | sqlite => [.raw ("->>'" ++ PathStep.dollarPath path ++ "'")]
  | mssql => [.comma, .space, .raw ("'" ++ PathStep.dollarPath path ++ "'"), .rparen]
  | _ => PathStep.arrows path

/-- A path is written around its column. -/
theorem jsonPath_eq (d : Dialect) (column : Draft) (path : List PathStep) :
    d.jsonPath column path = tokens d.pathOpening ++ (column ++ tokens (d.pathTokens path)) := by
  cases d with
  | mssql =>
    show tokens [.function "JSON_VALUE"] ++ (tokens [.lparen] ++ (column ++ tokens [.comma]
      ++ tokens [.space] ++ tokens [_]) ++ tokens [.rparen]) = _
    simp only [append_assoc, tokens_append]
    rw [← append_assoc, tokens_append]
    rfl
  | _ => rfl

/-- What a path decides stands between what it does not decide. -/
theorem texts_pathTokens (ctx : Context) (d : Dialect) :
    ∃ opening closing : List Char, ∀ path, (Token.texts ctx (d.pathTokens path)).toList
      = opening ++ (d.pathChars path ++ closing) := by
  have hraw : ∀ path (before behind : String),
      ((Token.raw (before ++ PathStep.dollarPath path ++ behind)).text ctx).toList
        = before.toList ++ ('$' :: PathStep.dollarChars path ++ behind.toList) := by
    intro path before behind
    show (before ++ PathStep.dollarPath path ++ behind).toList = _
    rw [String.toList_append, String.toList_append, PathStep.dollarPath_toList, List.append_assoc]
  cases d with
  | mysql | sqlite =>
    refine ⟨"->>'$".toList, "'".toList, fun path => ?_⟩
    show (String.join [(Token.raw ("->>'" ++ PathStep.dollarPath path ++ "'")).text ctx]).toList = _
    rw [String.join_cons, String.join_nil, String.append_empty, hraw]
    rfl
  | mssql =>
    refine ⟨", '$".toList, "')".toList, fun path => ?_⟩
    show (String.join [",", " ", (Token.raw ("'" ++ PathStep.dollarPath path ++ "'")).text ctx,
      ")"]).toList = _
    simp only [String.join_cons, String.join_nil, String.append_empty, String.toList_append, hraw]
    show _ = ", '$".toList ++ (PathStep.dollarChars path ++ "')".toList)
    simp
  | generic | postgres | oracle =>
    refine ⟨[], [], fun path => ?_⟩
    rw [List.append_nil]
    exact PathStep.texts_arrows ctx path

end Dialect

/-! ## The theorem -/

/-- The value at a path is written between texts that the path does not decide. -/
theorem Term.render_jsonPath {ctx : Context} {column : Term} {p p' : Parameters}
    {columnText : String} (hcolumn : (column.draft ctx).render ctx p = (.ok columnText, p'))
    (aliasName : Option String) :
    ∃ (written : List PathStep → String) (opening closing : List Char),
      (∀ path, (Term.draft ctx ⟨.jsonPath column path, aliasName⟩).render ctx p
        = (.ok (written path), p')) ∧
      ∀ path, (written path).toList = opening ++ (ctx.dialect.pathChars path ++ closing) := by
  obtain ⟨ts, hfinish, rfl⟩ := finish_of_render hcolumn
  obtain ⟨opening, closing, htexts⟩ := Dialect.texts_pathTokens ctx ctx.dialect
  refine ⟨fun path => Token.texts ctx (ctx.dialect.pathOpening ++ (ts
      ++ ctx.dialect.pathTokens path) ++ ctx.declaredTokens aliasName),
    (Token.texts ctx (ctx.dialect.pathOpening ++ ts)).toList ++ opening,
    closing ++ (Token.texts ctx (ctx.declaredTokens aliasName)).toList, ?_, ?_⟩
  · intro path
    have hdraft : Term.draft ctx ⟨.jsonPath column path, aliasName⟩
        = tokens ctx.dialect.pathOpening ++ (column.draft ctx
            ++ tokens (ctx.dialect.pathTokens path)) ++ tokens (ctx.declaredTokens aliasName) := by
      show ctx.dialect.jsonPath (column.draft ctx) path ++ ctx.declaration aliasName = _
      rw [Dialect.jsonPath_eq, ctx.declaration_eq_tokens]
    have hpath := finish_append hfinish (finish_tokens_eq (ctx.dialect.pathTokens path) p')
    have hwhole := finish_append (finish_append (finish_tokens_eq ctx.dialect.pathOpening p) hpath)
      (finish_tokens_eq (ctx.declaredTokens aliasName) p')
    rw [hdraft, render, hwhole]
    rfl
  · intro path
    simp only [Token.texts_append, String.toList_append, htexts, List.append_assoc]

/-- **Paths are told apart if no name in them goes on as a path does.** Where a column has a text,
    so has the value at each path in it, and it leaves the parameters that the column leaves. Two
    different paths none of whose names goes on in the notation of the dialect have different texts.
    With dots and brackets that is all there is: every path is written as exactly one of those
    paths. With arrows, two names in front of more steps are written as the one name is that has the
    end of a name, an arrow and the beginning of a name between them. -/
theorem Term.paths_apart {ctx : Context} {column : Term} {p p' : Parameters} {columnText : String}
    (hcolumn : (column.draft ctx).render ctx p = (.ok columnText, p'))
    (aliasName : Option String) :
    ∃ written : List PathStep → String,
      (∀ path, (Term.draft ctx ⟨.jsonPath column path, aliasName⟩).render ctx p
        = (.ok (written path), p')) ∧
      (∀ path path', ctx.dialect.Clear path → ctx.dialect.Clear path' → path ≠ path' →
        written path ≠ written path') ∧
      (ctx.dialect.startsAtDollar = true →
        ∀ path, ∃! clear, ctx.dialect.Clear clear ∧ written clear = written path) ∧
      (ctx.dialect.startsAtDollar = false →
        ∀ before a b step behind,
          written (before ++ .key (a ++ "'->'" ++ b) :: step :: behind)
            = written (before ++ .key a :: .key b :: step :: behind)) := by
  obtain ⟨written, opening, closing, hrender, hchars⟩ := Term.render_jsonPath hcolumn aliasName
  have hsame : ∀ path path', written path = written path' ↔
      ctx.dialect.pathChars path = ctx.dialect.pathChars path' := by
    intro path path'
    rw [← String.toList_inj, hchars, hchars, List.append_cancel_left_eq,
      List.append_cancel_right_eq]
  refine ⟨written, hrender, ?_, ?_, ?_⟩
  · intro path path' hclear hclear' hne htext
    exact hne (Dialect.pathChars_inj hclear hclear' ((hsame path path').mp htext))
  · -- the path that means the text is the one that reads dots and indexes as they stand
    intro hdollar path
    obtain ⟨clear, hclear, hpath⟩ := PathStep.exists_clear path
    have hclear : ctx.dialect.Clear clear := by rwa [Dialect.Clear, if_pos hdollar]
    have hpath : written clear = written path := by
      rwa [hsame, Dialect.pathChars, Dialect.pathChars, if_pos hdollar, if_pos hdollar]
    refine ⟨clear, ⟨hclear, hpath⟩, ?_⟩
    rintro other ⟨hother, htext⟩
    exact Dialect.pathChars_inj hother hclear ((hsame other clear).mp (htext.trans hpath.symm))
  · -- a quote with an arrow behind it in a name ends the name
    intro harrow before a b step behind
    have hnot : ¬ ctx.dialect.startsAtDollar = true := by simp [harrow]
    rw [hsame, Dialect.pathChars, Dialect.pathChars, if_neg hnot, if_neg hnot]
    exact PathStep.arrowChars_merged before a b step behind

/-- In Postgres a name with a quote in it in front of another one. -/
theorem Term.paths_apart_quote :
    let ctx := Context.ofDialect .postgres
    let column : Term := .field "doc"
    let text (path : List PathStep) := ((column.jsonPath path).draft ctx).text ctx
    (column.draft ctx).render ctx {} = (.ok "\"doc\"", {}) ∧
      text [.key "it's", .key "b"] ≠ text [.key "it", .key "s", .key "b"] := by
  intro ctx column text
  have hcolumn : (column.draft ctx).render ctx {} = (.ok "\"doc\"", {}) := by
    refine Prod.ext ?_ rfl
    decide +kernel
  refine ⟨hcolumn, ?_⟩
  obtain ⟨written, hrender, happart, -⟩ := Term.paths_apart hcolumn none
  have htext : ∀ path, text path = .ok (written path) :=
    fun path => congrArg Prod.fst (hrender path)
  have hclear : ctx.dialect.Clear [.key "it's", .key "b"] := by
    rintro name hname
    obtain rfl := PathStep.key.inj (List.mem_singleton.mp hname)
    decide
  have hclear' : ctx.dialect.Clear [.key "it", .key "s", .key "b"] := by
    rintro name hname
    simp only [List.dropLast, List.mem_cons, PathStep.key.injEq, List.not_mem_nil,
      or_false] at hname
    rcases hname with rfl | rfl <;> decide
  rw [htext, htext]
  exact fun h => happart _ _ hclear hclear' (by decide) (Except.ok.inj h)

/-- A name with a dot or a number in brackets, and one with an arrow between quotes: what is asked
    for is not known from the text. -/
theorem Term.paths_confused :
    let column : Term := .field "doc"
    let text (d : Dialect) (path : List PathStep) :=
      ((column.jsonPath path).draft (.ofDialect d)).text (.ofDialect d)
    text .postgres [.key "a'->'b", .key "c"] = .ok "\"doc\"->'a'->'b'->>'c'" ∧
      text .postgres [.key "a", .key "b", .key "c"] = .ok "\"doc\"->'a'->'b'->>'c'" ∧
      text .mysql [.key "a.b"] = .ok "`doc`->>'$.a.b'" ∧
      text .mysql [.key "a", .key "b"] = .ok "`doc`->>'$.a.b'" ∧
      text .mssql [.key "a[0]"] = .ok "JSON_VALUE(\"doc\", '$.a[0]')" ∧
      text .mssql [.key "a", .index 0] = .ok "JSON_VALUE(\"doc\", '$.a[0]')" := by
  intro column text
  decide +kernel

end SqlCompose
