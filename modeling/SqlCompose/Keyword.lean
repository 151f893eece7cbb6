/-! # Keywords — the fixed words of the language

    Two or more words that always stand together are one keyword. -/

namespace SqlCompose

/-- A fixed word, or fixed words that stand together. -/
inductive Keyword
  | select | from_ | where_ | prewhere | and | or | xor | not | as | on | join | using_ | collate
  | groupBy | having | orderBy | limit | offset | fetch | next | rows | only | top | case | when
  | then_ | else_ | end_ | in_ | between | isNull | distinct | all | with_ | recursive | totals
  | rollup | null
  | over | partitionBy | filter | ignoreNulls | range | unbounded | preceding | following
  | currentRow
  | create | drop | table | temporary | unlogged | if_ | exists_ | primary | key | unique
  | default | period | systemVersioning
  | insert | replace | ignore | into | values | update | set | delete | returning | conflict
  | do_ | nothing | duplicateKey | excluded
  | for_ | portion | of | noKey | nowait | skipLocked | force | use | index
  | array | atTimeZone | interval | load | data | local_ | infile | fields | terminatedBy
deriving DecidableEq

/-- Every keyword, once. -/
def Keyword.every : List Keyword :=
  [.select, .from_, .where_, .prewhere, .and, .or, .xor, .not, .as, .on, .join, .using_, .collate,
   .groupBy, .having, .orderBy, .limit, .offset, .fetch, .next, .rows, .only, .top, .case, .when,
   .then_, .else_, .end_, .in_, .between, .isNull, .distinct, .all, .with_, .recursive, .totals,
   .rollup, .null, .over, .partitionBy, .filter, .ignoreNulls, .range, .unbounded, .preceding,
   .following, .currentRow, .create, .drop, .table, .temporary, .unlogged, .if_, .exists_,
   .primary, .key, .unique, .default, .period, .systemVersioning, .insert, .replace, .ignore,
   .into, .values, .update, .set, .delete, .returning, .conflict, .do_, .nothing, .duplicateKey,
   .excluded, .for_, .portion, .of, .noKey, .nowait, .skipLocked, .force, .use, .index, .array,
   .atTimeZone, .interval, .load, .data, .local_, .infile, .fields, .terminatedBy]

/-- No keyword is left out. -/
theorem Keyword.mem_every (k : Keyword) : k ∈ every := by
  cases k <;> decide +kernel

/-- No keyword is listed twice. -/
theorem Keyword.nodup_every : every.Nodup := by
  decide +kernel

/-- The text of a keyword. -/
def Keyword.text : Keyword → String
  | .select => "SELECT"
  | .from_ => "FROM"
  | .where_ => "WHERE"
  | .prewhere => "PREWHERE"
  | .and => "AND"
  | .or => "OR"
  | .xor => "XOR"
  | .not => "NOT"
  | .as => "AS"
  | .on => "ON"
  | .join => "JOIN"
  | .using_ => "USING"
  | .collate => "COLLATE"
  | .groupBy => "GROUP BY"
  | .having => "HAVING"
  | .orderBy => "ORDER BY"
  | .limit => "LIMIT"
  | .offset => "OFFSET"
  | .fetch => "FETCH"
  | .next => "NEXT"
  | .rows => "ROWS"
  | .only => "ONLY"
  | .top => "TOP"
  | .case => "CASE"
  | .when => "WHEN"
  | .then_ => "THEN"
  | .else_ => "ELSE"
  | .end_ => "END"
  | .in_ => "IN"
  | .between => "BETWEEN"
  | .isNull => "IS NULL"
  | .distinct => "DISTINCT"
  | .all => "ALL"
  | .with_ => "WITH"
  | .recursive => "RECURSIVE"
  | .totals => "TOTALS"
  | .rollup => "ROLLUP"
  | .null => "NULL"
  | .over => "OVER"
  | .partitionBy => "PARTITION BY"
  | .filter => "FILTER"
  | .ignoreNulls => "IGNORE NULLS"
  | .range => "RANGE"
  | .unbounded => "UNBOUNDED"
  | .preceding => "PRECEDING"
  | .following => "FOLLOWING"
  | .currentRow => "CURRENT ROW"
  | .create => "CREATE"
  | .drop => "DROP"
  | .table => "TABLE"
  | .temporary => "TEMPORARY"
  | .unlogged => "UNLOGGED"
  | .if_ => "IF"
  | .exists_ => "EXISTS"
  | .primary => "PRIMARY"
  | .key => "KEY"
  | .unique => "UNIQUE"
  | .default => "DEFAULT"
  | .period => "PERIOD"
  | .systemVersioning => "SYSTEM VERSIONING"
  | .insert => "INSERT"
  | .replace => "REPLACE"
  | .ignore => "IGNORE"
  | .into => "INTO"
  | .values => "VALUES"
  | .update => "UPDATE"
  | .set => "SET"
  | .delete => "DELETE"
  | .returning => "RETURNING"
  | .conflict => "CONFLICT"
  | .do_ => "DO"
  | .nothing => "NOTHING"
  | .duplicateKey => "DUPLICATE KEY"
  | .excluded => "EXCLUDED"
  | .for_ => "FOR"
  | .portion => "PORTION"
  | .of => "OF"
  | .noKey => "NO KEY"
  | .nowait => "NOWAIT"
  | .skipLocked => "SKIP LOCKED"
  | .force => "FORCE"
  | .use => "USE"
  | .index => "INDEX"
  | .array => "ARRAY"
  | .atTimeZone => "AT TIME ZONE"
  | .interval => "INTERVAL"
  | .load => "LOAD"
  | .data => "DATA"
  | .local_ => "LOCAL"
  | .infile => "INFILE"
  | .fields => "FIELDS"
  | .terminatedBy => "TERMINATED BY"

end SqlCompose
