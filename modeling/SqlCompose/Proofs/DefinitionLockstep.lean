import SqlCompose.Definition.CreateTable
import SqlCompose.Definition.DropTable
import SqlCompose.Definition.LoadData
import SqlCompose.Proofs.Lockstep

/-! # Definitions in lockstep — CREATE TABLE and its like

    The definition of a table holds trees: the defaults of its columns, the stretch of time of the
    table and the statement that the table is filled from. Around them stand names and keywords, so
    what a simulation says of trees it says of definitions too.

    * `Writing` — all that tokens are written of, definitions included.
    * `Writing.exchange`, `Writing.Everywhere` — constants and conditions, as for nodes.
    * `Writing.draft_sim` — the drafts of a writing and of its exchange are related. -/

namespace SqlCompose

open Draft

/-- What tokens are written of. -/
inductive Writing
  | node (n : Node)
  | create (c : CreateTable)
  | drop (d : DropTable)
  | load (l : LoadData)

/-- The draft of what is written. -/
def Writing.draft (ctx : Context) : Writing → Draft
  | node n => n.draft ctx
  | create c => c.draft ctx
  | drop d => d.draft ctx
  | load l => l.draft ctx

/-! ## Definitions with other constants -/

section

variable (x : Exchange)

/-- The definition of a column with the constants of its default exchanged. -/
def ColumnDefinition.exchange (c : ColumnDefinition) : ColumnDefinition :=
  { c with default := exchangeOption x c.default }

/-- The definition of a table with its constants exchanged. -/
def CreateTable.exchange (c : CreateTable) : CreateTable :=
  { c with
    table := exchangeTarget x c.table
    columns := c.columns.map (ColumnDefinition.exchange x)
    statement := c.statement.map (Query.exchange x) }

/-- The removal of a table with its constants exchanged. -/
def DropTable.exchange (d : DropTable) : DropTable := { d with table := exchangeTarget x d.table }

/-- The filling of a table with its constants exchanged. -/
def LoadData.exchange (l : LoadData) : LoadData := { l with table := exchangeTarget x l.table }

/-- What is written, with its constants exchanged. -/
def Writing.exchange : Writing → Writing
  | node n => node (n.exchange x)
  | create c => create (c.exchange x)
  | drop d => drop (d.exchange x)
  | load l => load (l.exchange x)

end

theorem ColumnDefinition.exchange_id (c : ColumnDefinition) : c.exchange .id = c :=
  congrArg (ColumnDefinition.mk c.name c.type c.nullable) (exchangeOption_id c.default)

theorem CreateTable.exchange_id (c : CreateTable) : c.exchange .id = c := by
  have hcolumns : ColumnDefinition.exchange .id = id := funext ColumnDefinition.exchange_id
  have hstatement : Query.exchange .id = id := funext Query.exchange_id
  simp only [exchange, exchangeTarget_id, hcolumns, hstatement, List.map_id, Option.map_id_fun,
    id_eq]

/-- Exchanging every constant for itself changes nothing. -/
theorem Writing.exchange_id (w : Writing) : w.exchange .id = w := by
  cases w with
  | node n => exact congrArg node n.exchange_id
  | create c => exact congrArg create c.exchange_id
  | drop d => exact congrArg drop (congrArg (DropTable.mk d.dialect · d.ifExists)
      (exchangeTarget_id d.table))
  | load l => exact congrArg load (congrArg (LoadData.mk l.path) (exchangeTarget_id l.table))

/-! ## Definitions all of whose parts fulfil a condition -/

section

variable (P : Part → Prop)

/-- Everywhere in the definition of a table. -/
def CreateTable.Everywhere (c : CreateTable) : Prop :=
  targetEverywhere P c.table ∧ (∀ column ∈ c.columns, optionEverywhere P column.default) ∧
    ∀ q ∈ c.statement, P (.query q) ∧ q.Below P

/-- Everywhere in what is written. -/
def Writing.Everywhere : Writing → Prop
  | node n => n.Everywhere P
  | create c => c.Everywhere P
  | drop d => targetEverywhere P d.table
  | load l => targetEverywhere P l.table

end

/-- What every part fulfils is fulfilled everywhere. -/
theorem Writing.everywhere_of_forall {P : Part → Prop} (hP : ∀ p, P p) (w : Writing) :
    w.Everywhere P := by
  cases w with
  | node n => exact n.everywhere_of_forall hP
  | create c =>
    exact ⟨targetEverywhere_of_forall hP c.table,
      fun column _ => optionEverywhere_of_forall hP column.default,
      fun q _ => ⟨hP _, q.below_of_forall hP⟩⟩
  | drop d => exact targetEverywhere_of_forall hP d.table
  | load l => exact targetEverywhere_of_forall hP l.table

/-! ## Lockstep -/

section

variable {S : Simulation} {c c' : Context}

theorem Table.draft_sim (hc : S.alike c c') (t : Table) (htable : S.part (.table t))
    (hbelow : t.Below S.part) : S.rel (t.draft c) ((t.exchange S.exchange).draft c') := by
  have hname : c.aliasOf t.slot = c'.aliasOf (t.exchange S.exchange).slot := by
    cases t
    exact S.names hc htable _ (List.mem_cons_self ..)
  show S.rel (t.draftAs c (c.aliasOf t.slot)) _
  rw [hname]
  exact Table.draftAs_sim hc _ t hbelow

namespace ColumnDefinition

theorem draft_sim (hc : S.alike c c') (d : ColumnDefinition)
    (hdefault : optionEverywhere S.part d.default) :
    S.rel (d.draft c) ((d.exchange S.exchange).draft c') := by
  have h := S.congruence
  obtain ⟨name, type, nullable, default⟩ := d
  refine h.append (h.append (h.append (h.token (.ident name) rfl) ?_) ?_) ?_
  · cases type with
    | none => exact h.empty
    | some text => exact h.append h.space (h.raw text)
  · rcases nullable with _ | _ | _
    · exact h.empty
    · exact h.append h.space (h.words [.not, .null])
    · exact h.append h.space (h.word .null)
  · cases default with
    | none => exact h.empty
    | some t => exact h.clause [.default] (Term.draft_sim hc t hdefault)

/-- Lists of columns are lists of names. -/
theorem listDraft_sim (cs : List ColumnDefinition) : S.rel (listDraft cs) (listDraft cs) := by
  have h := S.congruence
  have hnames := h.idents (cs.map ColumnDefinition.name)
  rw [List.map_map] at hnames
  exact h.parens (h.commas hnames)

end ColumnDefinition

namespace CreateTable

/-- Columns, periods and keys, each by itself. -/
theorem parts_sim (hc : S.alike c c') (d : CreateTable)
    (hcolumns : ∀ column ∈ d.columns, optionEverywhere S.part column.default) :
    List.Forall₂ S.rel (d.parts c) ((d.exchange S.exchange).parts c') := by
  have h := S.congruence
  refine List.rel_append (List.rel_append (List.rel_append ?_ ?_) ?_) ?_
  · rw [exchange, List.map_map, List.forall₂_map_left_iff, List.forall₂_map_right_iff]
    exact List.forall₂_same.mpr fun column hmem => column.draft_sim hc (hcolumns column hmem)
  · refine List.forall₂_same.mpr fun written hmem => ?_
    obtain ⟨period, -, rfl⟩ := List.mem_map.mp hmem
    exact h.append (h.append (h.append (h.append (h.words [.period, .for_]) h.space)
      (h.token (.ident period.name) rfl)) h.space)
      (ColumnDefinition.listDraft_sim [period.start, period.stop])
  · refine List.forall₂_same.mpr fun written hmem => ?_
    obtain ⟨columns, -, rfl⟩ := List.mem_map.mp hmem
    exact h.append (h.append (h.word .unique) h.space) (ColumnDefinition.listDraft_sim columns)
  · show List.Forall₂ S.rel (if d.primaryKey.isEmpty then _ else _)
      (if d.primaryKey.isEmpty then _ else _)
    split
    · exact .nil
    · exact .cons (h.append (h.append (h.words [.primary, .key]) h.space)
        (ColumnDefinition.listDraft_sim d.primaryKey)) .nil

theorem draft_sim (hc : S.alike c c') (d : CreateTable) (hd : d.Everywhere S.part) :
    S.rel (d.draft c) ((d.exchange S.exchange).draft c') := by
  have h := S.congruence
  obtain ⟨htarget, hcolumns, hstatement⟩ := hd
  have hparts := d.parts_sim hc hcolumns
  obtain ⟨dialect, _ | table, temporary, unlogged, ifNotExists, versioned, columns, periods,
    uniques, primaryKey, statement⟩ := d
  · exact h.empty
  · have hkind : S.rel
        (if temporary then word .temporary ++ space else when unlogged (word .unlogged ++ space))
        (if temporary then word .temporary ++ space
          else when unlogged (word .unlogged ++ space)) := by
      split
      · exact h.append (h.word .temporary) h.space
      · exact h.when _ (h.append (h.word .unlogged) h.space)
    have hhead := h.append (h.append (h.append (h.append (h.append (h.append (h.word .create)
      h.space) hkind) (h.word .table)) h.space)
      (h.when ifNotExists (h.append (h.words [.if_, .not, .exists_]) h.space)))
      (Table.draft_sim hc table htarget.1 htarget.2)
    -- what is created from a statement has no columns of its own
    cases statement with
    | some q =>
      obtain ⟨hquery, hbelow⟩ := hstatement q rfl
      exact h.append hhead (h.clause [.as] (h.parens (Clause.statement_sim
        (Query.parts_sim q hquery hbelow) (S.declares (S.nested hc false) false))))
    | none =>
      show S.rel (if columns.isEmpty then _ else _) (if (columns.map _).isEmpty then _ else _)
      rw [List.isEmpty_map]
      split
      · exact h.empty
      · exact h.append (h.append (h.append hhead h.space) (h.parens (h.commas hparts)))
          (h.when _ (h.append h.space (h.words [.with_, .systemVersioning])))

end CreateTable

theorem DropTable.draft_sim (hc : S.alike c c') (d : DropTable)
    (htarget : targetEverywhere S.part d.table) :
    S.rel (d.draft c) ((d.exchange S.exchange).draft c') := by
  have h := S.congruence
  obtain ⟨dialect, _ | table, ifExists⟩ := d
  · exact h.empty
  · have hexists := h.when ifExists (h.append (h.words [.if_, .exists_]) h.space)
    exact h.append (h.append (h.append (h.words [.drop, .table]) h.space) hexists)
      (Table.draft_sim hc table htarget.1 htarget.2)

theorem LoadData.draft_sim (hc : S.alike c c') (l : LoadData)
    (htarget : targetEverywhere S.part l.table) :
    S.rel (l.draft c) ((l.exchange S.exchange).draft c') := by
  have h := S.congruence
  obtain ⟨_ | path, _ | table⟩ := l
  · exact h.empty
  · exact h.empty
  · exact h.empty
  · have hhead := h.append (h.words [.load, .data, .local_, .infile]) h.space
    exact h.append (h.append (h.append hhead (h.token (.string path) rfl))
      (h.clause [.into, .table] (Table.draft_sim hc table htarget.1 htarget.2)))
      (h.clause [.fields, .terminatedBy] (h.token (.string ",") rfl))

/-- The drafts of what is written and of its exchange are related. -/
theorem Writing.draft_sim (hc : S.alike c c') (w : Writing) (hw : w.Everywhere S.part) :
    S.rel (w.draft c) ((w.exchange S.exchange).draft c') := by
  cases w with
  | node n => exact n.draft_sim hc hw
  | create d => exact d.draft_sim hc hw
  | drop d => exact d.draft_sim hc hw
  | load l => exact l.draft_sim hc hw

end

end SqlCompose
