import SqlCompose.Definition.CreateTable
import SqlCompose.Proofs.WrittenLists

/-! # Table definitions — what of the calls on a CREATE TABLE is written

    A table is defined by calls in any order: columns, periods, columns that are unique, a primary
    key, or a statement that fills it. Columns and a statement exclude each other, and no other two
    calls do. So a definition with columns has everything that was asked for, each once and in the
    order of the calls; a definition with a statement has the statement and nothing else, whatever
    was asked for.

    * `CreateTable.Step`, `CreateTable.Step.run` — a call, and what calls make of a definition.
    * `CreateTable.Follows`, `CreateTable.Step.follows_run` — the parts of a definition are those of
      the calls.
    * `CreateTable.draft_of_columns`, `CreateTable.draft_of_statement` — the two forms of a
      definition.
    * `CreateTable.Step.definition_written` — the theorem. -/

namespace SqlCompose

open Draft

/-! ## What is written of a part -/

namespace ColumnDefinition

/-- The tokens of the names of columns. -/
def listTokens (cs : List ColumnDefinition) : List Token :=
  enclosedIf true (Token.joined .comma (cs.map fun c => [.ident c.name]))

theorem listDraft_eq_tokens (cs : List ColumnDefinition) :
    listDraft cs = tokens (listTokens cs) := by
  have hnames : cs.map nameDraft = (cs.map fun c => [Token.ident c.name]).map tokens := by
    rw [List.map_map]
    rfl
  show parensIf true (commas (cs.map nameDraft)) = _
  rw [hnames, commas_tokens, parensIf_tokens]
  rfl

end ColumnDefinition

/-- The tokens of a period. -/
def PeriodDefinition.tokens (p : PeriodDefinition) : List Token :=
  [.keyword .period, .space, .keyword .for_, .space, .ident p.name, .space] ++
    ColumnDefinition.listTokens [p.start, p.stop]

namespace CreateTable

/-- The tokens of columns that no two rows agree in. -/
def uniqueTokens (columns : List ColumnDefinition) : List Token :=
  [.keyword .unique, .space] ++ ColumnDefinition.listTokens columns

/-- The tokens of a primary key. -/
def keyTokens (columns : List ColumnDefinition) : List Token :=
  [.keyword .primary, .space, .keyword .key, .space] ++ ColumnDefinition.listTokens columns

/-! ## Calls -/

/-- A call on the builder of a table. -/
inductive Step
  | named (t : Table)
  | temporary
  | unlogged
  | ifNotExists
  | versioned
  | addColumns (columns : List ColumnDefinition)
  | addPeriod (p : PeriodDefinition)
  | addUnique (columns : List ColumnDefinition)
  | withPrimaryKey (columns : List ColumnDefinition)
  | fromStatement (q : Query)

namespace Step

/-- What a call makes of a definition. -/
def apply (c : CreateTable) : Step → Except BuildError CreateTable
  | named t => c.named t
  | temporary => .ok { c with temporary := true }
  | unlogged => .ok { c with unlogged := true }
  | ifNotExists => .ok { c with ifNotExists := true }
  | versioned => .ok { c with versioned := true }
  | addColumns columns => c.addColumns columns
  | addPeriod p => .ok (c.addPeriod p)
  | addUnique columns => .ok (c.addUnique columns)
  | withPrimaryKey columns => c.withPrimaryKey columns
  | fromStatement q => c.fromStatement q

/-- What one call after the other makes of a definition. -/
def run (c : CreateTable) (steps : List Step) : Except BuildError CreateTable :=
  steps.foldlM apply c

/-! ### What a call asks for -/

/-- The table that a call names. -/
def table? : Step → Option Table
  | named t => some t
  | _ => none

/-- The columns that a call asks for. -/
def columns : Step → List ColumnDefinition
  | addColumns columns => columns
  | _ => []

/-- The period that a call asks for. -/
def period? : Step → Option PeriodDefinition
  | addPeriod p => some p
  | _ => none

/-- The columns that a call asks to be unique. -/
def unique? : Step → Option (List ColumnDefinition)
  | addUnique columns => some columns
  | _ => none

/-- The primary key that a call asks for; one without columns is none. -/
def key? : Step → Option (List ColumnDefinition)
  | withPrimaryKey [] => none
  | withPrimaryKey columns => some columns
  | _ => none

/-- The statement that a call asks for. -/
def statement? : Step → Option Query
  | fromStatement q => some q
  | _ => none

/-- Whether the call asks for system versioning. -/
def asksVersions : Step → Bool
  | versioned => true
  | _ => false

end Step

/-! ## The parts of a definition are those of the calls -/

/-- The primary keys of a definition: its one, if that has columns. -/
def keys (c : CreateTable) : List (List ColumnDefinition) :=
  if c.primaryKey.isEmpty then [] else [c.primaryKey]

/-- A call adds what it asks for to the definition; a statement takes the place of one that is
    there, and columns and a statement never meet. -/
structure Grows (s : Step) (c c' : CreateTable) : Prop where
  table     : c'.table.toList = c.table.toList ++ s.table?.toList
  columns   : c'.columns = c.columns ++ s.columns
  periods   : c'.periods = c.periods ++ s.period?.toList
  uniques   : c'.uniques = c.uniques ++ s.unique?.toList
  keys      : c'.keys = c.keys ++ s.key?.toList
  statement : c'.statement = s.statement?.or c.statement
  versioned : c'.versioned = (c.versioned || s.asksVersions)
  exclusive : c.columns = [] ∨ c.statement = none → c'.columns = [] ∨ c'.statement = none

/-- What the definition has is what the calls asked for; of the statements the last one counts. -/
structure Follows (steps : List Step) (c : CreateTable) : Prop where
  table     : c.table.toList = steps.filterMap Step.table?
  columns   : c.columns = steps.flatMap Step.columns
  periods   : c.periods = steps.filterMap Step.period?
  uniques   : c.uniques = steps.filterMap Step.unique?
  keys      : c.keys = steps.filterMap Step.key?
  statement : c.statement = (steps.filterMap Step.statement?).getLast?
  versioned : c.versioned = steps.any Step.asksVersions
  exclusive : c.columns = [] ∨ c.statement = none

namespace Step

variable {s : Step} {steps : List Step} {c c' : CreateTable}

/-- A call that succeeds adds what it asks for. -/
theorem grows_of_apply (h : s.apply c = .ok c') : Grows s c c' := by
  -- what is set at most once is checked to be unset, what is a list grows at its end
  cases s with
  | named t =>
    simp only [apply, CreateTable.named] at h
    split at h
    case isTrue => exact nomatch h
    case isFalse hsome =>
      obtain rfl := Except.ok.inj h
      have hnone : c.table = none := by simpa using hsome
      constructor <;> simp [table?, columns, period?, unique?, key?, statement?, asksVersions,
        CreateTable.keys, hnone]
  | addColumns cs =>
    simp only [apply, CreateTable.addColumns] at h
    split at h
    case isTrue => exact nomatch h
    case isFalse hsome =>
      obtain rfl := Except.ok.inj h
      have hnone : c.statement = none := by simpa using hsome
      constructor <;> simp [table?, columns, period?, unique?, key?, statement?, asksVersions,
        CreateTable.keys, hnone]
  | withPrimaryKey cs =>
    simp only [apply, CreateTable.withPrimaryKey] at h
    split at h
    case isFalse => exact nomatch h
    case isTrue hempty =>
      obtain rfl := Except.ok.inj h
      have hnil : c.primaryKey = [] := by simpa using hempty
      constructor <;> cases cs <;> simp [table?, columns, period?, unique?, key?, statement?,
        asksVersions, CreateTable.keys, hnil]
  | fromStatement q =>
    simp only [apply, CreateTable.fromStatement] at h
    split at h
    case isFalse => exact nomatch h
    case isTrue hempty =>
      obtain rfl := Except.ok.inj h
      have hnil : c.columns = [] := by simpa using hempty
      constructor <;> simp [table?, columns, period?, unique?, key?, statement?, asksVersions,
        CreateTable.keys, hnil]
  | _ =>
    obtain rfl := Except.ok.inj h
    constructor <;> simp [table?, columns, period?, unique?, key?, statement?, asksVersions,
      CreateTable.keys, CreateTable.addPeriod, CreateTable.addUnique]

/-- What a call asks for stands behind what has been asked for. -/
theorem filterMap_snoc {α : Type} (f : Step → Option α) (steps : List Step) (s : Step) :
    (steps ++ [s]).filterMap f = steps.filterMap f ++ (f s).toList := by
  rw [List.filterMap_append]
  cases hs : f s <;> simp [hs]

/-- A definition that follows calls follows them and one more. -/
theorem follows_step (h : Follows steps c) (hs : Grows s c c') : Follows (steps ++ [s]) c' where
  table := by rw [hs.table, h.table, filterMap_snoc]
  columns := by rw [hs.columns, h.columns, List.flatMap_append, List.flatMap_singleton]
  periods := by rw [hs.periods, h.periods, filterMap_snoc]
  uniques := by rw [hs.uniques, h.uniques, filterMap_snoc]
  keys := by rw [hs.keys, h.keys, filterMap_snoc]
  statement := by
    rw [hs.statement, h.statement, filterMap_snoc, List.getLast?_append]
    cases s.statement? <;> rfl
  versioned := by simp [hs.versioned, h.versioned]
  exclusive := hs.exclusive h.exclusive

/-- A definition that follows calls follows them and those that are made behind them. -/
theorem follows_append {before : List Step} (hbefore : Follows before c)
    (h : run c steps = .ok c') : Follows (before ++ steps) c' := by
  induction steps generalizing before c with
  | nil =>
    obtain rfl : c = c' := Except.ok.inj h
    rwa [List.append_nil]
  | cons s rest ih =>
    obtain ⟨c₁, hs, hrest⟩ := foldlM_cons_ok h
    rw [List.append_cons]
    exact ih (follows_step hbefore (grows_of_apply hs)) hrest

/-- A definition is what was asked for. -/
theorem follows_run {d : Dialect} (h : run { dialect := d } steps = .ok c) : Follows steps c :=
  have hstart : Follows [] { dialect := d } := ⟨rfl, rfl, rfl, rfl, rfl, rfl, rfl, .inl rfl⟩
  follows_append hstart h

end Step

/-! ## The two forms of a definition -/

/-- The tokens of a definition in front of its table. -/
def frontTokens (c : CreateTable) : List Token :=
  [.keyword .create, .space] ++
    (if c.temporary then [.keyword .temporary, .space]
      else if c.unlogged then [.keyword .unlogged, .space] else []) ++
    [.keyword .table, .space] ++
    if c.ifNotExists then
      [.keyword .if_, .space, .keyword .not, .space, .keyword .exists_, .space]
    else []

theorem frontTokens_append_ne_nil (c : CreateTable) (behind : List Token) :
    c.frontTokens ++ behind ≠ [] := by
  simp [frontTokens]

/-- The tokens of what the rows of a definition have to keep to, in the order in which it is
    written. -/
def constraintTokens (c : CreateTable) : List (List Token) :=
  c.periods.map PeriodDefinition.tokens ++ c.uniques.map uniqueTokens ++ c.keys.map keyTokens

/-- The tokens of system versioning. -/
def versionTokens (c : CreateTable) : List Token :=
  if c.versioned then [.space, .keyword .with_, .space, .keyword .systemVersioning] else []

variable {c : CreateTable} {t : Table}

theorem parts_eq (ctx : Context) (c : CreateTable) :
    c.parts ctx = c.columns.map (ColumnDefinition.draft ctx) ++ c.constraintTokens.map tokens := by
  -- columns aside, each kind of part is a list of tokens
  have hperiods : c.periods.map PeriodDefinition.draft =
      (c.periods.map PeriodDefinition.tokens).map tokens := by
    rw [List.map_map]
    refine List.map_congr_left fun p _ => ?_
    have hfront : words [.period, .for_] ++ space ++ token (.ident p.name) ++ space =
        tokens [.keyword .period, .space, .keyword .for_, .space, .ident p.name, .space] := rfl
    rw [PeriodDefinition.draft, hfront, ColumnDefinition.listDraft_eq_tokens, tokens_append]
    rfl
  have huniques : c.uniques.map (fun cs => word .unique ++ space ++ ColumnDefinition.listDraft cs) =
      (c.uniques.map uniqueTokens).map tokens := by
    rw [List.map_map]
    refine List.map_congr_left fun cs _ => ?_
    have hfront : word .unique ++ space = tokens [.keyword .unique, .space] := rfl
    rw [hfront, ColumnDefinition.listDraft_eq_tokens, tokens_append]
    rfl
  have hkey : (if c.primaryKey.isEmpty then []
        else [words [.primary, .key] ++ space ++ ColumnDefinition.listDraft c.primaryKey]) =
      (c.keys.map keyTokens).map tokens := by
    rw [keys]
    split
    · rfl
    · have hfront : words [.primary, .key] ++ space =
          tokens [.keyword .primary, .space, .keyword .key, .space] := rfl
      rw [hfront, ColumnDefinition.listDraft_eq_tokens, tokens_append]
      rfl
  simp only [parts]
  rw [hperiods, huniques, hkey, constraintTokens, List.map_append, List.map_append,
    List.append_assoc, List.append_assoc, List.append_assoc]

/-- Every definition that has a table starts alike. -/
theorem front_eq (c : CreateTable) (rest : Draft) :
    word .create ++ (space ++
      ((if c.temporary then word .temporary ++ space
        else when c.unlogged (word .unlogged ++ space)) ++ (word .table ++ (space ++
          (when c.ifNotExists (words [.if_, .not, .exists_] ++ space) ++ rest))))) =
      tokens c.frontTokens ++ rest := by
  obtain ⟨dialect, table, temporary, unlogged, ifNotExists⟩ := c
  cases temporary <;> cases unlogged <;> cases ifNotExists <;> rfl

/-- A definition with columns has all its parts between parentheses, and its versioning behind
    them. -/
theorem draft_of_columns (ctx : Context) (htable : c.table = some t) (hnone : c.statement = none)
    (hcolumns : c.columns ≠ []) :
    c.draft ctx = tokens c.frontTokens ++ (t.draft ctx ++ (tokens [.space] ++
      (parens (commas (c.parts ctx)) ++ tokens c.versionTokens))) := by
  have hversioned : when c.versioned (space ++ words [.with_, .systemVersioning]) =
      tokens c.versionTokens := by
    rw [versionTokens]
    cases c.versioned <;> rfl
  have hempty : c.columns.isEmpty = false := List.isEmpty_eq_false_iff.mpr hcolumns
  simp only [draft, htable, hnone, hempty, Bool.false_eq_true, if_false, hversioned, append_assoc]
  exact front_eq c _

/-- A definition with a statement has the statement. -/
theorem draft_of_statement (ctx : Context) {q : Query} (htable : c.table = some t)
    (hsome : c.statement = some q) :
    c.draft ctx = tokens c.frontTokens ++ (t.draft ctx ++ (tokens [.space, .keyword .as, .space] ++
      parens (q.draft { ctx with nested := false, declares := false }))) := by
  simp only [draft, htable, hsome, append_assoc]
  exact front_eq c _

/-- Without a table, or with nothing that says what is in it, nothing is written. -/
theorem draft_of_nothing (ctx : Context)
    (h : c.table = none ∨ c.columns = [] ∧ c.statement = none) : c.draft ctx = empty := by
  obtain hnone | ⟨hcolumns, hnone⟩ := h
  · simp only [draft, hnone]
  · cases htable : c.table <;> simp [draft, htable, hcolumns, hnone]

/-! ## The theorem -/

/-- Parts of which the last ones are tokens are written as these tokens, behind what is written of
    the first ones. -/
theorem writes_parts {ds : List Draft} {fixed : List (List Token)} {ts : List Token}
    (h : (commas (ds ++ fixed.map tokens)).Writes ts) :
    ∃ lists : List (List Token),
      List.Forall₂ Writes ds lists ∧ ts = Token.joined .comma (lists ++ fixed) := by
  have hsplit : ∀ {ds : List Draft} {all : List (List Token)},
      List.Forall₂ Writes (ds ++ fixed.map tokens) all →
        ∃ lists, List.Forall₂ Writes ds lists ∧ all = lists ++ fixed := by
    intro ds
    induction ds with
    | nil =>
      intro all h
      refine ⟨[], .nil, ?_⟩
      rw [List.nil_append, List.forall₂_map_left_iff] at h
      have heq : List.Forall₂ Eq fixed all := h.imp fun _ _ hwritten => hwritten.of_tokens.symm
      exact (List.forall₂_eq_eq_eq ▸ heq).symm
    | cons d ds ih =>
      rintro (_ | ⟨us, all⟩) (_ | ⟨hd, hrest⟩)
      obtain ⟨lists, hlists, rfl⟩ := ih hrest
      exact ⟨us :: lists, .cons hd hlists, rfl⟩
  obtain ⟨all, hall, rfl⟩ := h.of_commas
  obtain ⟨lists, hlists, rfl⟩ := hsplit hall
  exact ⟨lists, hlists, rfl⟩

/-- The tokens behind the table of a definition with columns: between parentheses the columns, the
    periods, the unique columns and the primary key that calls ask for, with a comma between each
    two, and behind them system versioning if they ask for that. -/
def Step.bodyTokens (steps : List Step) (columns : List (List Token)) : List Token :=
  .space :: enclosedIf true (Token.joined .comma (columns ++
      ((steps.filterMap Step.period?).map PeriodDefinition.tokens ++
        (steps.filterMap Step.unique?).map uniqueTokens ++
        (steps.filterMap Step.key?).map keyTokens))) ++
    if steps.any Step.asksVersions then
      [.space, .keyword .with_, .space, .keyword .systemVersioning]
    else []

/-- The tokens of a definition that has a table. -/
theorem Follows.shape {steps : List Step} (h : Follows steps c) (htable : c.table = some t)
    {ctx : Context} {ts : List Token} (hts : (c.draft ctx).Writes ts) :
    (c.statement = none ∧ c.columns = [] ∧ ts = []) ∨
    ∃ table body : List Token, (t.draft ctx).Writes table ∧
      ts = c.frontTokens ++ (table ++ body) ∧
      ((c.statement = none ∧ c.columns ≠ [] ∧ ∃ columns : List (List Token),
          List.Forall₂ (fun column us => (column.draft ctx).Writes us) c.columns columns ∧
          body = Step.bodyTokens steps columns) ∨
        ∃ (q : Query) (us : List Token), c.statement = some q ∧ c.columns = [] ∧
          (q.draft { ctx with nested := false, declares := false }).Writes us ∧
          body = [.space, .keyword .as, .space] ++ enclosedIf true us) := by
  -- a statement leaves no room for columns, and without both nothing is written
  cases hstatement : c.statement with
  | none =>
    by_cases hcolumns : c.columns = []
    · rw [draft_of_nothing ctx (.inr ⟨hcolumns, hstatement⟩)] at hts
      exact .inl ⟨rfl, hcolumns, hts.of_empty⟩
    · rw [draft_of_columns ctx htable hstatement hcolumns] at hts
      obtain ⟨behind, hbehind, rfl⟩ := hts.of_behind
      obtain ⟨table, body, htable, hbody, rfl⟩ := hbehind.of_append
      obtain ⟨rest, hrest, rfl⟩ := hbody.of_behind
      obtain ⟨list, version, hlist, hversion, rfl⟩ := hrest.of_append
      obtain ⟨us, hus, rfl⟩ := hlist.of_parens
      obtain rfl := hversion.of_tokens
      rw [parts_eq] at hus
      obtain ⟨columns, hwritten, rfl⟩ := writes_parts hus
      rw [List.forall₂_map_left_iff] at hwritten
      refine .inr ⟨table, _, htable, rfl, .inl ⟨rfl, hcolumns, columns, hwritten, ?_⟩⟩
      rw [Step.bodyTokens, ← h.periods, ← h.uniques, ← h.keys, ← h.versioned]
      rfl
  | some q =>
    rw [draft_of_statement ctx htable hstatement] at hts
    obtain ⟨behind, hbehind, rfl⟩ := hts.of_behind
    obtain ⟨table, body, htable, hbody, rfl⟩ := hbehind.of_append
    obtain ⟨rest, hrest, rfl⟩ := hbody.of_behind
    obtain ⟨us, hus, rfl⟩ := hrest.of_parens
    have hcolumns : c.columns = [] := h.exclusive.resolve_right (by simp [hstatement])
    exact .inr ⟨table, _, htable, rfl, .inr ⟨q, us, rfl, hcolumns, hus, rfl⟩⟩

/-- **Columns bring everything along, a statement nothing.** Let calls on an empty definition
    succeed and let what they make of it be written.
    * Nothing is written exactly if no table was named, or if neither columns nor a statement were
      asked for.
    * Otherwise one table was named, and it is written behind `CREATE TABLE`.
    * If no statement was asked for, everything else that was is written behind the table, each
      once: between parentheses the columns, the periods, the unique columns, all in the order of
      the calls, and the primary key, of which there is one at most; and system versioning behind
      the parentheses.
    * If a statement was asked for, no columns were, and only the last statement is written: none of
      the periods, unique columns, primary key or system versioning that were asked for, whatever
      they are. -/
theorem Step.definition_written {d : Dialect} {steps : List Step} {c : CreateTable}
    (h : run { dialect := d } steps = .ok c) {ctx : Context} {ts : List Token}
    (hts : (c.draft ctx).Writes ts) :
    (ts = [] ↔ steps.filterMap table? = [] ∨
      steps.flatMap columns = [] ∧ steps.filterMap statement? = []) ∧
    (ts ≠ [] → ∃ (t : Table) (table body : List Token),
      steps.filterMap table? = [t] ∧ (t.draft ctx).Writes table ∧
      ts = c.frontTokens ++ (table ++ body) ∧
      ((steps.filterMap statement? = [] ∧ (steps.filterMap key?).length ≤ 1 ∧
          ∃ lists : List (List Token),
            List.Forall₂ (fun column us => (column.draft ctx).Writes us)
              (steps.flatMap columns) lists ∧
            body = bodyTokens steps lists) ∨
        ∃ (q : Query) (us : List Token), (steps.filterMap statement?).getLast? = some q ∧
          steps.flatMap columns = [] ∧
          (q.draft { ctx with nested := false, declares := false }).Writes us ∧
          body = [.space, .keyword .as, .space] ++ enclosedIf true us)) := by
  have hfollows := follows_run h
  have hone : (steps.filterMap key?).length ≤ 1 := by
    rw [← hfollows.keys, keys]
    split <;> simp
  have hstatement : c.statement = none ↔ steps.filterMap statement? = [] := by
    rw [hfollows.statement, List.getLast?_eq_none_iff]
  -- a definition without a table is not written, whatever else the calls gave
  cases htable : c.table with
  | none =>
    have htables : steps.filterMap table? = [] := by
      rw [← hfollows.table, htable]
      rfl
    rw [draft_of_nothing ctx (.inl htable)] at hts
    obtain rfl := hts.of_empty
    exact ⟨iff_of_true rfl (.inl htables), absurd rfl⟩
  | some t =>
    have htables : steps.filterMap table? = [t] := by
      rw [← hfollows.table, htable]
      rfl
    obtain ⟨hnone, hcolumns, rfl⟩ | ⟨table, body, hwritten, rfl, hbody⟩ :=
      hfollows.shape htable hts
    · refine ⟨iff_of_true rfl (.inr ⟨?_, hstatement.mp hnone⟩), absurd rfl⟩
      rw [← hfollows.columns, hcolumns]
    · refine ⟨iff_of_false (frontTokens_append_ne_nil c _) ?_, fun _ => ?_⟩
      · rintro (hnil | ⟨hcolumns, hnone⟩)
        · exact nomatch htables.symm.trans hnil
        · rw [← hfollows.columns] at hcolumns
          rw [← hstatement] at hnone
          obtain ⟨-, hne, -⟩ | ⟨q, us, hq, -⟩ := hbody
          · exact hne hcolumns
          · exact nomatch hnone.symm.trans hq
      · refine ⟨t, table, body, htables, hwritten, rfl, ?_⟩
        obtain ⟨hnone, -, lists, hlists, rfl⟩ | ⟨q, us, hq, hcolumns, hus, rfl⟩ := hbody
        · rw [hfollows.columns] at hlists
          exact .inl ⟨hstatement.mp hnone, hone, lists, hlists, rfl⟩
        · rw [hfollows.statement] at hq
          rw [hfollows.columns] at hcolumns
          exact .inr ⟨q, us, hq, hcolumns, hus, rfl⟩

/-- A definition with everything that there is, asked for from the end. -/
theorem Step.definition_written_versions :
    let t := Table.named 1 "t"
    let id : ColumnDefinition := { name := "id", type := some "INT", nullable := some false }
    let start : ColumnDefinition := { name := "start" }
    let stop : ColumnDefinition := { name := "stop", default := some (.value (.int 0)) }
    let steps : List Step := [.versioned, .withPrimaryKey [id], .addUnique [start, stop],
      .addPeriod ⟨"valid", start, stop⟩, .addColumns [id], .named t, .addColumns [start, stop]]
    let ctx := Context.ofDialect .generic
    ∃ c, run { dialect := .generic } steps = .ok c ∧ ∃ ts, (c.draft ctx).Writes ts ∧
      Token.texts ctx ts =
        "CREATE TABLE \"t\" (\"id\" INT NOT NULL,\"start\",\"stop\" DEFAULT 0," ++
          "PERIOD FOR \"valid\" (\"start\",\"stop\"),UNIQUE (\"start\",\"stop\")," ++
          "PRIMARY KEY (\"id\")) WITH SYSTEM VERSIONING" ∧
      ∃ (table : List Token) (lists : List (List Token)),
        List.Forall₂ (fun column us => (column.draft ctx).Writes us) [id, start, stop] lists ∧
        ts = c.frontTokens ++ (table ++ bodyTokens steps lists) := by
  intro t id start stop steps ctx
  let c : CreateTable :=
    { dialect := .generic, table := some t, versioned := true, columns := [id, start, stop],
      periods := [⟨"valid", start, stop⟩], uniques := [[start, stop]], primaryKey := [id] }
  have hrun : run { dialect := .generic } steps = .ok c := rfl
  have htext : ((c.draft ctx).finish {}).1.toOption.map (Token.texts ctx) =
      some ("CREATE TABLE \"t\" (\"id\" INT NOT NULL,\"start\",\"stop\" DEFAULT 0," ++
        "PERIOD FOR \"valid\" (\"start\",\"stop\"),UNIQUE (\"start\",\"stop\")," ++
        "PRIMARY KEY (\"id\")) WITH SYSTEM VERSIONING") := by decide +kernel
  obtain ⟨ts, hts, htext⟩ := exists_ok_of_map htext
  have hwrites : (c.draft ctx).Writes ts := ⟨{}, _, Prod.ext hts rfl⟩
  obtain ⟨hempty, hwritten⟩ := definition_written hrun hwrites
  have hne : ts ≠ [] := by
    rintro rfl
    obtain hnil | ⟨hnil, -⟩ := hempty.mp rfl
    · exact nomatch hnil
    · exact nomatch hnil
  obtain ⟨-, table, -, -, -, hts, ⟨-, -, lists, hlists, rfl⟩ | ⟨q, -, hq, -⟩⟩ := hwritten hne
  · exact ⟨c, hrun, ts, hwrites, htext, table, lists, hlists, hts⟩
  · exact nomatch hq

/-- System versioning that was asked for, and a table that is filled from a statement. -/
theorem Step.versions_dropped :
    let t := Table.named 1 "t"
    let s := Table.named 2 "s"
    let q : Query :=
      { Query.start 3 .generic with
        sources := [.table s]
        selects := [.column "a" (some (.table s))] }
    let steps : List Step := [.named t, .versioned, .fromStatement q]
    ∃ c, run { dialect := .generic } steps = .ok c ∧ steps.any asksVersions = true ∧
      c.sql = .ok "CREATE TABLE \"t\" AS (SELECT \"a\" FROM \"s\")" ∧
      ∃ ts, (c.draft (Context.ofDialect .generic)).Writes ts ∧ .keyword .systemVersioning ∉ ts := by
  intro t s q steps
  let c : CreateTable :=
    { dialect := .generic, table := some t, versioned := true, statement := some q }
  have hmissing : ((c.draft (Context.ofDialect .generic)).finish {}).1.toOption.map
      (fun ts => decide (.keyword .systemVersioning ∈ ts)) = some false := by decide +kernel
  obtain ⟨ts, hts, hmissing⟩ := exists_ok_of_map hmissing
  exact ⟨c, rfl, rfl, by decide +kernel, ts, ⟨{}, _, Prod.ext hts rfl⟩,
    of_decide_eq_false hmissing⟩

end CreateTable

end SqlCompose
