import QueryConsole.Dataset.Basic

namespace QueryConsole

def partSizes : List Aggregate :=
  [⟨"count()", "parts"⟩,
   ⟨"sum(rows)", "total_rows"⟩,
   ⟨"sum(bytes_on_disk)", "total_bytes_on_disk"⟩,
   ⟨"sum(data_compressed_bytes)", "compressed_bytes"⟩,
   ⟨"sum(data_uncompressed_bytes)", "uncompressed_bytes"⟩,
   ⟨"if(sum(data_uncompressed_bytes) = 0, 0, " ++
      "round((1 - sum(data_compressed_bytes)" ++
      " / sum(data_uncompressed_bytes)) * 100, 2))", "compression_savings_pct"⟩]

def queryLogTable : Table where
  name := "system.query_log"
  timeColumn := some "event_time"
  defaultSort := "event_time"
  scalarFields :=
    ["type", "query_kind", "query_id", "initial_query_id", "user", "initial_user",
     "current_database", "client_hostname", "client_name", "interface", "is_initial_query",
     "exception_code", "normalized_query_hash", "http_user_agent", "query_duration_ms",
     "read_rows", "read_bytes", "written_rows", "written_bytes", "result_rows", "result_bytes",
     "memory_usage"]
  arrayFields :=
    ["databases", "tables", "columns", "partitions", "projections", "views", "used_functions",
     "used_aggregate_functions", "used_aggregate_function_combinators", "used_database_engines",
     "used_data_type_families", "used_dictionaries", "used_formats", "used_storages",
     "used_table_functions", "used_executable_user_defined_functions",
     "used_sql_user_defined_functions", "used_row_policies", "used_privileges",
     "missing_privileges", "thread_ids"]
  rangeFields :=
    ["query_duration_ms", "read_rows", "read_bytes", "written_rows", "written_bytes",
     "result_rows", "result_bytes", "memory_usage"]
  searchColumns := ["query", "exception"]
  measures := ["query_duration_ms", "read_rows", "read_bytes", "result_rows", "memory_usage"]
  categories := some
    { column := "query_kind"
      values :=
        ["Select", "Insert", "Create", "Alter", "Drop", "System"] }
  summaries :=
    [{ name := "user"
       keys := ["user"]
       aggregates :=
         [⟨"count()", "queries"⟩,
          ⟨"countIf(exception_code != 0)", "failed"⟩,
          ⟨"sum(query_duration_ms)", "total_duration_ms"⟩,
          ⟨"sum(read_bytes)", "total_read_bytes"⟩,
          ⟨"max(memory_usage)", "peak_memory_usage"⟩]
       defaultSort := "queries" }]

def partsTable : Table where
  name := "system.parts"
  timeColumn := some "modification_time"
  defaultSort := "modification_time"
  scalarFields :=
    ["database", "table", "partition", "partition_id", "name", "part_type", "active",
     "disk_name", "level", "rows", "marks", "bytes_on_disk", "data_compressed_bytes",
     "data_uncompressed_bytes"]
  arrayFields := ["projections"]
  rangeFields :=
    ["level", "rows", "marks", "bytes_on_disk", "data_compressed_bytes",
     "data_uncompressed_bytes"]
  searchColumns := ["database", "table", "name"]
  measures := ["rows", "bytes_on_disk"]
  categories := none
  summaries :=
    [{ name := "table"
       keys := ["database", "table"]
       aggregates := partSizes
       defaultSort := "total_bytes_on_disk" },
     { name := "partition"
       keys := ["database", "table", "partition"]
       aggregates := partSizes
       defaultSort := "total_bytes_on_disk" }]

def processesTable : Table where
  name := "system.processes"
  timeColumn := none
  defaultSort := "elapsed"
  scalarFields :=
    ["query_id", "user", "address", "initial_user", "initial_query_id", "current_database",
     "is_initial_query", "client_hostname", "client_name", "http_user_agent", "query_kind",
     "elapsed", "read_rows", "memory_usage"]
  arrayFields := ["thread_ids"]
  rangeFields := ["elapsed", "read_rows", "memory_usage"]
  searchColumns := ["query"]
  measures := []
  categories := none
  summaries := []

def mergesTable : Table where
  name := "system.merges"
  timeColumn := none
  defaultSort := "elapsed"
  scalarFields :=
    ["database", "table", "partition_id", "result_part_name", "is_mutation", "merge_type",
     "merge_algorithm", "elapsed", "progress", "num_parts", "total_size_bytes_compressed"]
  arrayFields := ["source_part_names"]
  rangeFields := ["elapsed", "progress", "num_parts", "total_size_bytes_compressed"]
  searchColumns := ["table", "result_part_name"]
  measures := []
  categories := none
  summaries :=
    [{ name := "table"
       keys := ["database", "table"]
       aggregates :=
         [⟨"count()", "merges"⟩,
          ⟨"countIf(is_mutation)", "mutations"⟩,
          ⟨"sum(total_size_bytes_compressed)", "merged_bytes_compressed"⟩,
          ⟨"round(avg(progress), 4)", "avg_progress"⟩]
       defaultSort := "merges" }]

def mutationsTable : Table where
  name := "system.mutations"
  timeColumn := some "create_time"
  defaultSort := "create_time"
  scalarFields :=
    ["database", "table", "mutation_id", "command", "is_done", "latest_failed_part",
     "latest_fail_reason", "parts_to_do"]
  arrayFields := ["parts_to_do_names"]
  rangeFields := ["parts_to_do"]
  searchColumns := ["command", "latest_fail_reason"]
  measures := ["parts_to_do"]
  categories := none
  summaries :=
    [{ name := "table"
       keys := ["database", "table"]
       aggregates :=
         [⟨"count()", "mutations"⟩,
          ⟨"countIf(is_done = 0)", "pending"⟩,
          ⟨"countIf(latest_fail_reason != '')", "failing"⟩,
          ⟨"sum(parts_to_do)", "total_parts_to_do"⟩]
       defaultSort := "pending" }]

def partLogTable : Table where
  name := "system.part_log"
  timeColumn := some "event_time"
  defaultSort := "event_time"
  scalarFields :=
    ["event_type", "merge_reason", "merge_algorithm", "database", "table", "part_name",
     "partition_id", "part_type", "disk_name", "query_id", "error", "exception", "duration_ms",
     "rows", "size_in_bytes", "read_rows", "read_bytes", "peak_memory_usage"]
  arrayFields := ["merged_from"]
  rangeFields :=
    ["duration_ms", "rows", "size_in_bytes", "read_rows", "read_bytes", "peak_memory_usage"]
  searchColumns := ["part_name", "exception"]
  measures := ["duration_ms", "rows", "size_in_bytes", "peak_memory_usage"]
  categories := some
    { column := "event_type"
      values :=
        ["NewPart", "MergeParts", "DownloadPart", "RemovePart", "MutatePart", "MovePart"] }
  summaries :=
    [{ name := "table"
       keys := ["database", "table"]
       aggregates :=
         [⟨"count()", "events"⟩,
          ⟨"countIf(event_type = 'NewPart')", "new_parts"⟩,
          ⟨"countIf(event_type = 'MergeParts')", "merges"⟩,
          ⟨"countIf(error != 0)", "errors"⟩,
          ⟨"sum(size_in_bytes)", "total_size_in_bytes"⟩]
       defaultSort := "events" }]

def textLogTable : Table where
  name := "system.text_log"
  timeColumn := some "event_time"
  defaultSort := "event_time"
  scalarFields :=
    ["level", "logger_name", "thread_name", "thread_id", "query_id", "source_file",
     "source_line", "message_format_string"]
  arrayFields := []
  rangeFields := ["source_line"]
  searchColumns := ["message"]
  measures := []
  categories := some
    { column := "level"
      values :=
        ["Fatal", "Critical", "Error", "Warning", "Notice", "Information", "Debug", "Trace"] }
  summaries := []

def viewRefreshesTable : Table where
  name := "system.view_refreshes"
  timeColumn := some "last_refresh_time"
  defaultSort := "last_refresh_time"
  scalarFields :=
    ["database", "view", "status", "exception", "retry", "read_rows", "written_rows"]
  arrayFields := []
  rangeFields := ["retry", "read_rows", "written_rows"]
  searchColumns := ["view", "exception"]
  measures := []
  categories := none
  summaries := []

def Dataset.table : Dataset → Table
  | .queryLog => queryLogTable
  | .parts => partsTable
  | .processes => processesTable
  | .merges => mergesTable
  | .mutations => mutationsTable
  | .partLog => partLogTable
  | .textLog => textLogTable
  | .viewRefreshes => viewRefreshesTable

end QueryConsole
