import RoutineParams.Json.Forms
import RoutineParams.Proofs.JsonTexts
import RoutineParams.Proofs.Lines

/-!
# Parameters read back from output

Parameters come to an output one by one or several at once. Either way the text is the same, and
they are read from it again as they were, whatever characters their names and defaults have: as
the items of one array, or each from a line of its own.

    writeCalls f calls = writeParameters f (calls.flatMap parameters)          (writeCalls_eq)
    Parameter.ofJson? p.toJson = some p                              (Parameter.ofJson?_toJson)
    Summary.ofText? (Printed.render duration (.summary s)) = some s    (Summary.ofText?_render)
-/

namespace RoutineParams

/-! ## Definitions -/

/-- What an output is given at a time: a parameter, or several. -/
inductive OutputCall where
  | one (p : Parameter)
  | batch (ps : List Parameter)

/-- The parameters of a call. -/
def OutputCall.parameters : OutputCall → List Parameter
  | .one p => [p]
  | .batch ps => ps

/-- Writes what a call gives. -/
def Output.accept (o : Output) : OutputCall → Output
  | .one p => o.write p
  | .batch ps => o.writeAll ps

/-- What is written after some calls. -/
def writeCalls (format : OutputFormat) (calls : List OutputCall) : String :=
  (calls.foldl Output.accept (Output.start format)).finish

namespace Parameter

/-- The parameter that a text writes. -/
def ofText? (text : String) : Option Parameter := (Json.parse? text).bind ofJson?

/-- The parameters that a text writes as one array. -/
def listOfText? (text : String) : Option (List Parameter) :=
  (Json.parse? text).bind (Json.list? ofJson?)

/-- The parameters that a text writes, one on each line. -/
def listOfLines? (text : String) : Option (List Parameter) :=
  (linesOf text.toList).mapM fun line => ofText? (String.ofList line)

end Parameter

/-- A whole number of 64 bits without a sign. -/
def Json.count? (j : Json) : Option Nat := j.uint64?.map UInt64.toNat

/-- The summary that a JSON value stands for, without the time that the scan took. -/
def Summary.ofJson? (j : Json) : Option Summary := do
  match ← j.fields? ["database_name", "routines", "parameters", "with_defaults",
      "partial_routines"] with
  | [some name, some routines, some parameters, some withDefaults, some partials] =>
    some ⟨← name.str?, ← routines.count?, ← parameters.count?, ← withDefaults.count?,
      ← partials.count?⟩
  | _ => none

/-- The summary that a text writes. -/
def Summary.ofText? (text : String) : Option Summary := (Json.parse? text).bind ofJson?

/-- The numbers of a summary are of 64 bits. -/
def Summary.Fits (s : Summary) : Prop :=
  s.routines < 2 ^ 64 ∧ s.parameters < 2 ^ 64 ∧ s.withDefaults < 2 ^ 64 ∧ s.partials < 2 ^ 64

/-- A parameter on a line of its own. -/
def Parameter.line (p : Parameter) : List Char := p.toJson.compact ++ ['\n']

/-! ## Lemmas: what is written -/

namespace Output
variable (o : Output) (ps : List Parameter)

theorem accept_eq (call : OutputCall) : o.accept call = o.writeAll call.parameters := by
  cases call <;> rfl

theorem writeAll_append (qs : List Parameter) :
    o.writeAll (ps ++ qs) = (o.writeAll ps).writeAll qs := List.foldl_append

theorem foldl_accept (calls : List OutputCall) :
    calls.foldl accept o = o.writeAll (calls.flatMap OutputCall.parameters) := by
  induction calls generalizing o with
  | nil => rfl
  | cons call calls ih =>
    rw [List.foldl_cons, ih, accept_eq, List.flatMap_cons, writeAll_append]

theorem writeAll_cons (p : Parameter) : o.writeAll (p :: ps) = (o.write p).writeAll ps := rfl

theorem writeAll_json (h : o.format = .json) :
    o.writeAll ps = { o with waiting := ps.reverse ++ o.waiting } := by
  induction ps generalizing o with
  | nil => rfl
  | cons p ps ih =>
    have hwrite : o.write p = { o with waiting := p :: o.waiting } := by simp [write, h]
    rw [writeAll_cons, hwrite, ih _ (by exact h)]
    simp

theorem writeAll_ndjson (h : o.format = .ndjson) :
    o.writeAll ps = { o with written := (ps.map Parameter.line).reverse ++ o.written } := by
  induction ps generalizing o with
  | nil => rfl
  | cons p ps ih =>
    have hwrite : o.write p = { o with written := p.line :: o.written } := by
      simp [write, h, Parameter.line]
    rw [writeAll_cons, hwrite, ih _ (by exact h)]
    simp

theorem writeAll_database (h : o.format = .database) : o.writeAll ps = o := by
  induction ps with
  | nil => rfl
  | cons p ps ih =>
    have hwrite : o.write p = o := by
      rw [write, h]
    rw [writeAll_cons, hwrite, ih]

end Output

/-- **How the parameters come does not show** in what is written. -/
theorem writeCalls_eq (format : OutputFormat) (calls : List OutputCall) :
    writeCalls format calls =
      writeParameters format (calls.flatMap OutputCall.parameters) := by
  rw [writeCalls, writeParameters, Output.foldl_accept]

section
variable (ps : List Parameter)

theorem writeParameters_json : writeParameters .json ps =
    String.ofList (Json.pretty (.arr (ps.map Parameter.toJson))) ++ "\n" := by
  rw [writeParameters, Output.writeAll_json _ _ rfl]
  simp [Output.finish, Output.start]

theorem toList_writeParameters_ndjson :
    (writeParameters .ndjson ps).toList = ps.flatMap Parameter.line := by
  rw [writeParameters, Output.writeAll_ndjson _ _ rfl]
  simp [Output.finish, Output.start, List.flatMap]

theorem writeParameters_database : writeParameters .database ps = "" := by
  rw [writeParameters, Output.writeAll_database _ _ rfl]
  rfl

end

/-! ## Lemmas: what is read -/

theorem Json.isSpace_lineEnd : ∀ c ∈ ['\n'], isSpace c = true := isSpace_of_mem_newline 0

theorem Json.int64?_toInt (n : Int64) : Json.int64? (.int n.toInt) = some n := by
  have hrange : Int64.minValue.toInt ≤ n.toInt ∧ n.toInt ≤ Int64.maxValue.toInt :=
    ⟨Int64.minValue_le_toInt n, Int64.toInt_le n⟩
  rw [Json.int64?, Json.int?, Option.bind_eq_bind, Option.bind_some, if_pos hrange,
    Int64.ofInt_toInt]

namespace Parameter
variable (p : Parameter)

theorem ofJson?_toJson : ofJson? p.toJson = some p := by
  simp [ofJson?, toJson, Json.fields?, List.lookup_cons, Json.int64?_toInt, Json.str?]

theorem isReadable_toJson {depth : Nat} : Json.IsReadable (depth + 1) p.toJson := by
  have hid : p.objectId.toInt.natAbs < 2 ^ 64 := by
    have hle := Int64.le_toInt p.objectId
    have hlt := Int64.toInt_lt p.objectId
    omega
  refine .obj (by simp) fun m hm => ?_
  simp only [List.mem_cons, List.not_mem_nil, or_false] at hm
  rcases hm with rfl | rfl | rfl
  · exact .int depth hid
  · exact .str depth p.name
  · exact .str depth p.default

theorem isLine_line : IsLine p.line := by
  have hreadable : Json.IsReadable 1 p.toJson := p.isReadable_toJson
  have hnewline : '\n' ∉ p.toJson.compact := by
    intro hmem
    exact absurd (Json.le_of_mem_compact hreadable hmem) (by decide)
  exact ⟨p.toJson.compact, hnewline, by rw [line]⟩

theorem ofText?_line : ofText? (String.ofList p.line) = some p := by
  rw [ofText?, line, Json.parse?_compact p.isReadable_toJson Json.isSpace_lineEnd,
    Option.bind_some, ofJson?_toJson]

end Parameter

section
variable (ps : List Parameter)

theorem linesOf_flatMap_line : linesOf (ps.flatMap Parameter.line) = ps.map Parameter.line := by
  have hlines : ∀ line ∈ ps.map Parameter.line, IsLine line := by
    intro line hline
    obtain ⟨p, -, rfl⟩ := List.mem_map.1 hline
    exact p.isLine_line
  have hare := areLines_append hlines .nil
  rw [List.append_nil] at hare
  exact linesOf_flatten hare

theorem count_newline_flatMap_line : (ps.flatMap Parameter.line).count '\n' = ps.length := by
  induction ps with
  | nil => rfl
  | cons p ps ih =>
    obtain ⟨l, hl, hline⟩ := p.isLine_line
    rw [List.flatMap_cons, List.count_append, ih, hline, List.count_append,
      List.count_eq_zero.2 hl, List.length_cons]
    simp
    omega

theorem listOfLines?_writeParameters :
    Parameter.listOfLines? (writeParameters .ndjson ps) = some ps := by
  have hread : (fun line => Parameter.ofText? (String.ofList line)) ∘ Parameter.line =
      fun p => pure p := by
    funext p
    rw [Function.comp_apply, Parameter.ofText?_line]
    rfl
  rw [Parameter.listOfLines?, toList_writeParameters_ndjson, linesOf_flatMap_line, List.mapM_map,
    hread, List.mapM_pure, List.map_id']
  rfl

theorem listOfText?_pretty {s : List Char} (hs : ∀ c ∈ s, Json.isSpace c = true) :
    Parameter.listOfText?
      (String.ofList (Json.pretty (.arr (ps.map Parameter.toJson)) ++ s)) = some ps := by
  have hreadable : Json.IsReadable Json.maxDepth (.arr (ps.map Parameter.toJson)) := by
    refine .arr fun j hj => ?_
    obtain ⟨p, -, rfl⟩ := List.mem_map.1 hj
    exact p.isReadable_toJson
  have hread : Parameter.ofJson? ∘ Parameter.toJson = fun p => pure p := by
    funext p
    exact p.ofJson?_toJson
  rw [Parameter.listOfText?, Json.parse?_pretty hreadable hs, Option.bind_some, Json.list?,
    List.mapM_map, hread, List.mapM_pure, List.map_id']
  rfl

theorem listOfText?_writeParameters :
    Parameter.listOfText? (writeParameters .json ps) = some ps := by
  have hread := listOfText?_pretty ps Json.isSpace_lineEnd
  rw [String.ofList_append] at hread
  rw [writeParameters_json]
  exact hread

end

/-! ## Lemmas: summaries -/

theorem Json.count?_int {n : Nat} (h : n < 2 ^ 64) : Json.count? (.int n) = some n := by
  have hrange : (0 : Int) ≤ n ∧ (n : Int) < UInt64.size := by
    rw [UInt64.size]
    omega
  rw [Json.count?, Json.uint64?, Json.int?, Option.bind_eq_bind, Option.bind_some, if_pos hrange,
    Option.map_some, Int.toNat_natCast, UInt64.toNat_ofNat_of_lt' h]

theorem Summary.isReadable_toJson {s : Summary} (h : s.Fits) {duration : Nat}
    (hduration : duration < 2 ^ 64) {depth : Nat} :
    Json.IsReadable (depth + 1) (s.toJson duration) := by
  obtain ⟨hroutines, hparameters, hdefaults, hpartials⟩ := h
  refine .obj (by simp) fun m hm => ?_
  simp only [List.mem_cons, List.not_mem_nil, or_false] at hm
  rcases hm with rfl | rfl | rfl | rfl | rfl | rfl
  · exact .str depth s.databaseName
  · exact .int depth hroutines
  · exact .int depth hparameters
  · exact .int depth hdefaults
  · exact .int depth hpartials
  · exact .int depth hduration

theorem Summary.ofJson?_of_fields {j a b c d : Json} {name : String}
    {routines parameters withDefaults partials : Nat}
    (h : j.fields? ["database_name", "routines", "parameters", "with_defaults",
      "partial_routines"] = some [some (.str name), some a, some b, some c, some d])
    (ha : a.count? = some routines) (hb : b.count? = some parameters)
    (hc : c.count? = some withDefaults) (hd : d.count? = some partials) :
    ofJson? j = some ⟨name, routines, parameters, withDefaults, partials⟩ := by
  rw [ofJson?, h]
  simp only [Option.bind_eq_bind, Option.bind_some, ha, hb, hc, hd, Json.str?]

theorem Summary.ofJson?_toJson {s : Summary} (h : s.Fits) (duration : Nat) :
    ofJson? (s.toJson duration) = some s := by
  obtain ⟨hroutines, hparameters, hdefaults, hpartials⟩ := h
  exact ofJson?_of_fields rfl (Json.count?_int hroutines) (Json.count?_int hparameters)
    (Json.count?_int hdefaults) (Json.count?_int hpartials)

/-- **A summary is read back from its line**, whatever time it tells. -/
theorem Summary.ofText?_render {s : Summary} (h : s.Fits) {duration : Nat}
    (hduration : duration < 2 ^ 64) :
    ofText? (Printed.render duration (.summary s)) = some s := by
  have htext : Printed.render duration (.summary s) =
      String.ofList ((s.toJson duration).compact ++ ['\n']) := by
    rw [Printed.render, line, String.ofList_append]
  rw [ofText?, htext, Json.parse?_compact (isReadable_toJson h hduration)
    Json.isSpace_lineEnd, Option.bind_some, ofJson?_toJson h]

/-! ## Top theorem (proved from the lemmas above) -/

/-- **Parameters are read back from output** as they were handed over, and calls that follow only
add to what is written line by line. -/
theorem writeCalls_decodes (calls : List OutputCall) :
    let ps := calls.flatMap OutputCall.parameters
    ((writeCalls .ndjson calls).toList.count '\n' = ps.length ∧
      (∀ line ∈ linesOf (writeCalls .ndjson calls).toList, IsLine line) ∧
      Parameter.listOfLines? (writeCalls .ndjson calls) = some ps ∧
      ∀ k, (writeCalls .ndjson (calls.take k)).toList <+: (writeCalls .ndjson calls).toList) ∧
    (∃ text, writeCalls .json calls = text ++ "\n" ∧ Parameter.listOfText? text = some ps) ∧
    writeCalls .database calls = "" := by
  intro ps
  have hlines : linesOf (writeCalls .ndjson calls).toList = ps.map Parameter.line := by
    rw [writeCalls_eq, toList_writeParameters_ndjson, linesOf_flatMap_line]
  have hread : Parameter.listOfText?
      (String.ofList (Json.pretty (.arr (ps.map Parameter.toJson)))) = some ps := by
    have hblanks := listOfText?_pretty ps (s := []) (by simp)
    rwa [List.append_nil] at hblanks
  refine ⟨⟨?_, ?_, ?_, fun k => ?_⟩, ⟨_, ?_, hread⟩, ?_⟩
  · rw [writeCalls_eq, toList_writeParameters_ndjson, count_newline_flatMap_line]
  · simp [hlines, Parameter.isLine_line]
  · rw [writeCalls_eq, listOfLines?_writeParameters]
  · have hcalls : calls.flatMap OutputCall.parameters =
        (calls.take k).flatMap OutputCall.parameters ++
          (calls.drop k).flatMap OutputCall.parameters := by
      rw [← List.flatMap_append, List.take_append_drop]
    rw [writeCalls_eq, writeCalls_eq, toList_writeParameters_ndjson, toList_writeParameters_ndjson,
      hcalls, List.flatMap_append]
    exact List.prefix_append _ _
  · rw [writeCalls_eq, writeParameters_json]
  · rw [writeCalls_eq, writeParameters_database]

end RoutineParams
