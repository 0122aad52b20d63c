/-! The reserved words of the statement language.
A name may be a reserved word, but only in ASCII letters: one whose upper case alone is
reserved, such as a word with a long s, is no name. -/
namespace Cellstore.Token

/-- The reserved words that play no part of their own, in upper case. -/
def reservedWords : List String := [
  "ALL", "ALTER", "ANALYZE", "AND", "ANTI", "ANY", "APPLY", "ARRAY", "AS", "ASC", "ASOF",
  "AUTOINCREMENT", "AUTO_INCREMENT", "BETWEEN", "BIGDECIMAL", "BIGINT", "BIGNUM", "BIGNUMERIC",
  "BINARY", "BIT", "BLOB", "BOOL", "BOOLEAN", "BPCHAR", "BYTE", "BYTEA", "CACHE", "CASE", "CHAR",
  "CHARACTER", "CLOB", "COLLATE", "COLUMN", "COMMENT", "COMMIT", "CONSTRAINT", "COPY", "CREATE",
  "CROSS", "CUBE", "CURRENT_CATALOG", "CURRENT_DATE", "CURRENT_SCHEMA", "CURRENT_TIME",
  "CURRENT_TIMESTAMP", "CURRENT_USER", "DATABASE", "DATE", "DATEMULTIRANGE", "DATERANGE",
  "DATETIME", "DEC", "DECFLOAT", "DECIMAL", "DECIMAL128", "DECIMAL256", "DECIMAL32", "DECIMAL64",
  "DEFAULT", "DESC", "DESCRIBE", "DISTINCT", "DIV", "DOUBLE", "DROP", "ELSE", "END", "ENUM",
  "ESCAPE", "EXCEPT", "EXISTS", "FALSE", "FILE", "FILTER", "FIRST", "FIXED", "FLOAT", "FLOAT4",
  "FLOAT8", "FOR", "FORMAT", "FROM", "FULL", "FUNCTION", "GEOGRAPHY", "GEOMETRY", "GLOB", "GRANT",
  "HAVING", "HUGEINT", "ILIKE", "IN", "INDEX", "INET", "INNER", "INT", "INT1", "INT128", "INT16",
  "INT2", "INT256", "INT32", "INT4", "INT4MULTIRANGE", "INT4RANGE", "INT64", "INT8",
  "INT8MULTIRANGE", "INT8RANGE", "INTEGER", "INTERSECT", "INTERVAL", "INTO", "IS", "ISNULL",
  "JOIN", "JSON", "JSONB", "KEEP", "KILL", "LATERAL", "LEFT", "LIKE", "LIMIT", "LIST", "LOAD",
  "LOCALTIME", "LOCALTIMESTAMP", "LOCK", "LONG", "LONGBLOB", "LONGTEXT", "LONGVARCHAR", "MAP",
  "MEDIUMBLOB", "MEDIUMINT", "MEDIUMTEXT", "MERGE", "NAMESPACE", "NATURAL", "NCHAR", "NEXT",
  "NOT", "NOTNULL", "NULL", "NULLABLE", "NUMBER", "NUMERIC", "NUMMULTIRANGE", "NUMRANGE",
  "NVARCHAR", "NVARCHAR2", "OBJECT", "OFFSET", "ON", "OPERATOR", "OR", "ORDINALITY", "OUT",
  "OUTER", "OVER", "OVERLAPS", "OVERWRITE", "PARTITION", "PARTITIONED_BY", "PERCENT", "PIVOT",
  "PRAGMA", "PROCEDURE", "QUALIFY", "RANGE", "REAL", "RECURSIVE", "REFERENCES", "REGEXP",
  "REPLACE", "RETURNING", "REVOKE", "RIGHT", "RLIKE", "ROLLBACK", "ROLLUP", "ROW", "ROWS",
  "SCHEMA", "SEMI", "SEQUENCE", "SESSION", "SESSION_USER", "SET", "SETTINGS", "SHORT", "SMALLINT",
  "SOME", "STR", "STRAIGHT_JOIN", "STRING", "STRUCT", "TABLE", "TABLESAMPLE", "TEMP", "TEMPORARY",
  "TEXT", "THEN", "TIME", "TIMESTAMP", "TIMESTAMPLTZ", "TIMESTAMPNTZ", "TIMESTAMPTZ",
  "TIMESTAMP_LTZ", "TIMESTAMP_NTZ", "TIMETZ", "TIME_NS", "TINYBLOB", "TINYINT", "TINYTEXT",
  "TRIGGER", "TRUE", "TRUNCATE", "TSMULTIRANGE", "TSRANGE", "TSTZMULTIRANGE", "TSTZRANGE",
  "UHUGEINT", "UINT", "UINT128", "UINT256", "UNCACHE", "UNION", "UNIQUE", "UNKNOWN", "UNNEST",
  "UNPIVOT", "USE", "USING", "UUID", "VALUES", "VARBINARY", "VARCHAR", "VARCHAR2", "VARIANT",
  "VECTOR", "VIEW", "VOLATILE", "WHEN", "WHERE", "WINDOW", "WITH", "XOR"]

end Cellstore.Token
