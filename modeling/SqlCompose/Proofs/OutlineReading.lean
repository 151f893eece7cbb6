import Mathlib.Algebra.GroupWithZero.Nat
import Mathlib.Control.Monad.Basic
import SqlCompose.Proofs.CriterionReading

/-! # Outlines of conditions — reading combinators and parentheses

    A reader of conditions knows one thing about precedence: AND, OR and XOR bind weaker than
    everything else. What stands between two of them, or between parentheses, is a phrase of words
    and of groups in parentheses; the AND behind a BETWEEN is a word. The reader takes one token
    after the other and gives up where a level of parentheses mixes combinators.

    * `Outline` — what is read: phrases, groups and chains of one combinator.
    * `Reader`, `read?` — the reader.
    * `Reader.groups_of_run`, `groups_of_read?` — it finds one group for each pair of parentheses.
    * `Words`, `Closed` — texts that only add to the phrase that they stand in.
    * `Reader.run_enclosedIf`, `Reader.run_combinator` — what the reader does at parentheses and
      between operands. -/

namespace SqlCompose

open Draft

namespace Condition

/-! ## Outlines -/

/-- What a text looks like to who knows combinators and parentheses: the words and groups of a
    phrase one behind the other, and chains of phrases. -/
inductive Outline
  | nothing
  | word (before : Outline) (t : Token)
  | group (before inside : Outline)
  | combination (op : Combinator) (left right : Outline)
deriving DecidableEq

namespace Outline

/-- The number of groups. -/
def groups : Outline → Nat
  | nothing => 0
  | word before _ => before.groups
  | group before inside => before.groups + inside.groups + 1
  | combination _ left right => left.groups + right.groups

/-- The outline with words behind it. Blanks are no words. -/
def words (o : Outline) (ts : List Token) : Outline :=
  ts.foldl (fun o t => if t = .space then o else .word o t) o

/-- Words make no group. -/
theorem groups_words (o : Outline) (ts : List Token) : (o.words ts).groups = o.groups := by
  induction ts generalizing o with
  | nil => rfl
  | cons t ts ih =>
    show Outline.groups (Outline.words (if t = .space then o else .word o t) ts) = _
    rw [ih]
    split <;> rfl

end Outline

/-! ## The reader -/

/-- A level of parentheses, as far as it has been read: the chain with the combinator behind it, the
    phrase behind that, and the number of BETWEENs that wait for their AND. -/
structure Level where
  chain   : Option (Outline × Combinator) := none
  phrase  : Outline := .nothing
  awaited : Nat := 0

namespace Level

/-- The outline of the level, if nothing comes behind the phrase. -/
def closed (level : Level) : Outline :=
  match level.chain with
  | none => level.phrase
  | some (before, op) => .combination op before level.phrase

/-- The level with words behind the phrase. -/
def words (level : Level) (ts : List Token) : Level :=
  { level with phrase := level.phrase.words ts }

/-- The level with a group behind the phrase. -/
def group (level : Level) (inside : Outline) : Level :=
  { level with phrase := .group level.phrase inside }

/-- Whether the level may go on with this combinator: it has no other, and no AND is missing. -/
def takes (level : Level) (op : Combinator) : Bool :=
  level.awaited == 0 && level.chain.all fun (_, other) => other == op

/-- The level with a combinator behind it. -/
def combine (level : Level) (op : Combinator) : Level :=
  { chain := some (level.closed, op) }

/-- The number of groups on the level. -/
def groups (level : Level) : Nat :=
  level.chain.elim 0 (fun before => before.1.groups) + level.phrase.groups

/-- Reads a token that is no parenthesis. -/
def step (level : Level) : Token → Option Level
  | .keyword .between =>
    some { level.words [.keyword .between] with awaited := level.awaited + 1 }
  | .keyword k =>
    match Combinator.ofKeyword? k with
    | none => some (level.words [.keyword k])
    | some op =>
      if op = .and ∧ 0 < level.awaited then
        some { level.words [.keyword .and] with awaited := level.awaited - 1 }
      else if level.takes op then some (level.combine op)
      else none
  | t => some (level.words [t])

/-- A level that is closed has the groups it had. -/
theorem groups_closed (level : Level) : level.closed.groups = level.groups := by
  obtain ⟨_ | ⟨before, op⟩, phrase, awaited⟩ := level
  · exact (Nat.zero_add _).symm
  · rfl

theorem groups_words (level : Level) (ts : List Token) : (level.words ts).groups = level.groups :=
  congrArg (_ + ·) (level.phrase.groups_words ts)

/-- A group counts, with those inside it. -/
theorem groups_group (level : Level) (inside : Outline) :
    (level.group inside).groups = level.groups + inside.groups + 1 := by
  simp only [groups, group, Outline.groups]
  omega

/-- A combination makes no group. -/
theorem groups_combine (level : Level) (op : Combinator) :
    (level.combine op).groups = level.groups := level.groups_closed

/-- Behind an operator the level takes the same operator. -/
theorem takes_combine (level : Level) (op : Combinator) : (level.combine op).takes op = true := by
  simp [takes, combine]

/-- Where an operator is taken, no word is awaited. -/
theorem awaited_of_takes {level : Level} {op : Combinator} (h : level.takes op = true) :
    level.awaited = 0 := by
  simpa using ((Bool.and_eq_true _ _).mp h).1

/-- Only parentheses make groups. -/
theorem groups_step {level next : Level} {t : Token} (h : level.step t = some next) :
    next.groups = level.groups := by
  have hwords := level.groups_words
  unfold step at h
  split at h
  · cases h
    exact hwords [.keyword .between]
  · next k _ =>
    split at h
    · cases h
      exact hwords [.keyword k]
    · split at h
      · cases h
        exact hwords [.keyword .and]
      · split at h
        · cases h
          exact level.groups_combine _
        · cases h
  · cases h
    exact hwords _

end Level

/-- A text that is being read: the levels around, the innermost first, and the level. -/
structure Reader where
  around : List Level := []
  level  : Level := {}

namespace Reader

/-- Reads one token. -/
def step (r : Reader) : Token → Option Reader
  | .lparen => some ⟨r.level :: r.around, {}⟩
  | .rparen =>
    match r.around with
    | outer :: around =>
      if r.level.awaited = 0 then some ⟨around, outer.group r.level.closed⟩ else none
    | [] => none
  | t => (r.level.step t).map (Reader.mk r.around)

/-- Reads tokens one after the other. -/
def run (r : Reader) (ts : List Token) : Option Reader := ts.foldlM step r

/-- The number of groups that there will be when the parentheses are closed. -/
def groups (r : Reader) : Nat := r.level.groups + (r.around.map fun level => level.groups + 1).sum

/-- Two texts are read one after the other. -/
theorem run_append (r : Reader) (ts us : List Token) :
    r.run (ts ++ us) = (r.run ts).bind fun s => s.run us := List.foldlM_append

theorem run_cons (r : Reader) (t : Token) (ts : List Token) :
    r.run (t :: ts) = (r.step t).bind fun s => s.run ts := List.foldlM_cons

/-- What comes behind a text is read from where the text leaves the reader. -/
theorem run_behind {r s : Reader} {ts : List Token} (h : r.run ts = some s) (us : List Token) :
    r.run (ts ++ us) = s.run us := by
  rw [run_append, h]
  rfl

/-- Each opening parenthesis makes a group. -/
theorem groups_step {r s : Reader} {t : Token} (h : r.step t = some s) :
    s.groups = r.groups + [t].count .lparen := by
  unfold step at h
  -- an opening parenthesis starts a group, a closing one ends it, and other tokens leave it
  split at h
  · cases h
    have hempty : ({} : Level).groups = 0 := rfl
    simp only [groups, hempty, List.map_cons, List.sum_cons, List.count_singleton_self]
    omega
  · split at h
    · next outer around haround =>
      split at h
      · cases h
        have hgroup := outer.groups_group r.level.closed
        rw [r.level.groups_closed] at hgroup
        simp only [groups, hgroup, haround, List.map_cons, List.sum_cons]
        show _ = _ + 0
        omega
      · cases h
    · cases h
  · next hopen hclose =>
    obtain ⟨next, hnext, rfl⟩ := Option.map_eq_some_iff.mp h
    have hcount : [t].count .lparen = 0 := List.count_eq_zero.mpr (by simpa using Ne.symm hopen)
    rw [hcount]
    exact congrArg (· + _) (Level.groups_step hnext)

/-- What is read of a text has one group for each opening parenthesis. -/
theorem groups_of_run {r s : Reader} {ts : List Token} (h : r.run ts = some s) :
    s.groups = r.groups + ts.count .lparen := by
  induction ts generalizing r with
  | nil =>
    cases h
    rfl
  | cons t ts ih =>
    rw [run_cons] at h
    obtain ⟨next, hstep, hrest⟩ := Option.bind_eq_some_iff.mp h
    have hcount : (t :: ts).count .lparen = [t].count .lparen + ts.count .lparen :=
      @List.count_append _ _ _ [t] ts
    rw [ih hrest, groups_step hstep, hcount, Nat.add_assoc]

end Reader

/-- Reads a condition; every parenthesis that is opened has to be closed, and every BETWEEN has to
    have its AND. -/
def read? (ts : List Token) : Option Outline :=
  match Reader.run {} ts with
  | some ⟨[], level⟩ => if level.awaited = 0 then some level.closed else none
  | _ => none

/-- As many groups are read as there are parentheses. -/
theorem groups_of_read? {ts : List Token} {o : Outline} (h : read? ts = some o) :
    o.groups = ts.count .lparen := by
  unfold read? at h
  split at h
  · next level hrun =>
    split at h
    · cases h
      have hgroups := Reader.groups_of_run hrun
      have hempty : (Reader.groups {}) = 0 := rfl
      rw [hempty, Nat.zero_add] at hgroups
      exact level.groups_closed.trans hgroups
    · cases h
  · cases h

/-! ## Words and closed texts -/

/-- Whether the token is a word wherever it stands, or a blank. -/
def isWord : Token → Bool
  | .lparen | .rparen | .keyword .between | .keyword .and | .keyword .or | .keyword .xor => false
  | _ => true

/-- The tokens are words and blanks. -/
def Words (ts : List Token) : Prop := ts.all isWord = true

/-- Words may follow words. -/
theorem Words.append {ts us : List Token} (hts : Words ts) (hus : Words us) : Words (ts ++ us) := by
  rw [Words, List.all_append, hts, hus]
  rfl

/-- In words there are no parentheses. -/
theorem Words.count_eq {ts : List Token} (h : Words ts) : ts.count .lparen = 0 :=
  List.count_eq_zero.mpr fun hmem => nomatch List.all_eq_true.mp h _ hmem

/-- An alias is written in words. -/
theorem words_aliasTokens (ctx : Context) (aliasName : Option String) :
    Words (ctx.aliasTokens aliasName) := by
  cases aliasName with
  | none => rfl
  | some aliasName =>
    simp only [Context.aliasTokens]
    split
    · rfl
    · split <;> rfl

/-- So is an alias where it is declared. -/
theorem words_declaredTokens (ctx : Context) (aliasName : Option String) :
    Words (ctx.declaredTokens aliasName) := by
  rw [Context.declaredTokens]
  split
  · exact words_aliasTokens ctx aliasName
  · rfl

/-- The outline with what is read of a text behind it. -/
def Outline.text (o : Outline) (ts : List Token) : Outline :=
  match Reader.run ⟨[], { phrase := o }⟩ ts with
  | some r => r.level.phrase
  | none => o

/-- The text adds the same words and groups to any phrase, wherever it stands. -/
def Closed (ts : List Token) : Prop :=
  ∀ (around : List Level) (level : Level), Reader.run ⟨around, level⟩ ts =
    some ⟨around, { level with phrase := level.phrase.text ts }⟩

/-- What changes the phrase of a level alone, whatever else is on the level. -/
def OnPhrase (f : Level → Level) : Prop :=
  ∀ level : Level, f level = { level with phrase := (f { phrase := level.phrase }).phrase }

namespace OnPhrase

variable {f g : Level → Level}

/-- Words only add to the phrase. -/
theorem words (ts : List Token) : OnPhrase fun level => level.words ts := fun _ => rfl

/-- One change of the phrase after another is a change of the phrase. -/
theorem comp (hg : OnPhrase g) (hf : OnPhrase f) : OnPhrase fun level => g (f level) := by
  intro level
  have hplain := hf { phrase := level.phrase }
  show g (f level) = { level with phrase := (g (f { phrase := level.phrase })).phrase }
  rw [hf level, hg, hplain]

/-- The phrase is not what a level awaits. -/
theorem awaited_eq (hf : OnPhrase f) (level : Level) : (f level).awaited = level.awaited := by
  rw [hf]

/-- Nor is it the operator that a level takes. -/
theorem takes_eq (hf : OnPhrase f) (level : Level) (op : Combinator) :
    (f level).takes op = level.takes op := by
  rw [hf]
  rfl

theorem await (hf : OnPhrase f) (level : Level) (n : Nat) :
    f { level with awaited := n } = { f level with awaited := n } := by
  rw [hf, hf level]

end OnPhrase

namespace Level

/-- The level with what is written on it, as a group of its own or not. -/
def within (level : Level) (brackets : Bool) (write : Level → Level) : Level :=
  if brackets then level.group (write {}).closed else write level

/-- What changes only the phrase does so between parentheses too. -/
theorem onPhrase_within {write : Level → Level} (h : OnPhrase write) (brackets : Bool) :
    OnPhrase fun level => level.within brackets write := by
  cases brackets with
  | false => exact h
  | true => exact fun _ => rfl

/-- Parentheses add one group. -/
theorem groups_within {write : Level → Level} {n : Nat}
    (h : ∀ level : Level, (write level).groups = level.groups + n) (level : Level)
    (brackets : Bool) :
    (level.within brackets write).groups = level.groups + (n + if brackets then 1 else 0) := by
  cases brackets with
  | false => exact h level
  | true =>
    have hinside : (write {}).closed.groups = n := by
      rw [groups_closed, h]
      exact Nat.zero_add n
    show (level.group (write {}).closed).groups = _
    rw [groups_group, hinside, Nat.add_assoc]
    rfl

end Level

namespace Reader

/-- A word is read onto the level it stands on. -/
theorem step_word {t : Token} (h : isWord t = true) (around : List Level) (level : Level) :
    step ⟨around, level⟩ t = some ⟨around, level.words [t]⟩ := by
  cases t with
  | keyword k => cases k <;> first | rfl | exact nomatch h
  | lparen => exact nomatch h
  | rparen => exact nomatch h
  | _ => rfl

/-- Words are words. -/
theorem run_words {ts : List Token} (h : Words ts) (around : List Level)
    (level : Level) : run ⟨around, level⟩ ts = some ⟨around, level.words ts⟩ := by
  induction ts generalizing level with
  | nil => rfl
  | cons t ts ih =>
    obtain ⟨hword, hwords⟩ := (Bool.and_eq_true _ _).mp h
    rw [run_cons, step_word hword]
    exact ih hwords _

/-- What stands between parentheses is a group. -/
theorem run_parens {around : List Level} {level inner : Level} {ts : List Token}
    (h : run ⟨level :: around, {}⟩ ts = some ⟨level :: around, inner⟩)
    (hawaited : inner.awaited = 0) :
    run ⟨around, level⟩ (.lparen :: (ts ++ [.rparen])) =
      some ⟨around, level.group inner.closed⟩ := by
  rw [run_cons]
  show run ⟨level :: around, {}⟩ (ts ++ [.rparen]) = _
  rw [run_behind h]
  show (if inner.awaited = 0 then some (Reader.mk around (level.group inner.closed))
    else none).bind _ = _
  rw [if_pos hawaited]
  rfl

/-- What is read alike at all levels is read so between parentheses. -/
theorem run_enclosedIf {ts : List Token} {write : Level → Level} (hwrite : OnPhrase write)
    (h : ∀ (around : List Level) (level : Level),
      run ⟨around, level⟩ ts = some ⟨around, write level⟩)
    (brackets : Bool) (around : List Level) (level : Level) :
    run ⟨around, level⟩ (enclosedIf brackets ts) = some ⟨around, level.within brackets write⟩ := by
  cases brackets with
  | false => exact h around level
  | true => exact run_parens (h (level :: around) {}) (hwrite.awaited_eq {})

/-- A combinator goes behind a level that takes it. -/
theorem run_combinator {level : Level} {op : Combinator} (h : level.takes op = true)
    (around : List Level) :
    run ⟨around, level⟩ [.space, .keyword op.keyword, .space] =
      some ⟨around, level.combine op⟩ := by
  have hawaited := Level.awaited_of_takes h
  have hstep : level.step (.keyword op.keyword) = some (level.combine op) := by
    cases op <;> simp [Level.step, Combinator.keyword, Combinator.ofKeyword?, hawaited, h]
  show run ⟨around, level⟩ [.keyword op.keyword, .space] = _
  rw [run_cons]
  have hreader : step ⟨around, level⟩ (.keyword op.keyword) = some ⟨around, level.combine op⟩ :=
    congrArg (Option.map (Reader.mk around)) hstep
  rw [hreader]
  rfl

end Reader

/-- Words are closed, since they leave nothing to await. -/
theorem closed_of_words {ts : List Token} (h : Words ts) : Closed ts := by
  intro around level
  have htext : level.phrase.text ts = level.phrase.words ts := by
    rw [Outline.text, Reader.run_words h]
    rfl
  rw [Reader.run_words h, htext]
  rfl

/-- A list of words in parentheses is closed. -/
theorem closed_parens {ts : List Token} (h : Words ts) :
    Closed (.lparen :: (ts ++ [.rparen])) := by
  have hrun (around : List Level) (level : Level) :=
    Reader.run_parens (Reader.run_words h (level :: around) {}) rfl
  intro around level
  have htext : level.phrase.text (.lparen :: (ts ++ [.rparen])) =
      .group level.phrase (Level.words {} ts).closed := by
    rw [Outline.text, hrun]
    rfl
  rw [hrun, htext]
  rfl

/-- A closed text adds one group for each pair of parentheses. -/
theorem Closed.groups_text {ts : List Token} (h : Closed ts) (o : Outline) :
    (o.text ts).groups = o.groups + ts.count .lparen := by
  have hgroups := Reader.groups_of_run (h [] { phrase := o })
  simpa [Reader.groups, Level.groups] using hgroups

end Condition

end SqlCompose
