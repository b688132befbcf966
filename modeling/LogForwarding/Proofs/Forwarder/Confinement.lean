import LogForwarding.Proofs.Forwarder.Shape
import LogForwarding.Proofs.Synthesis

/-!
No text of a document or of its cluster can add anything to the configuration of the forwarder.  The
text of the configuration is taken apart at the quotes around what it carries; each part is read
between two tokens with the layout that the shape of the document gives it.
-/

namespace LogForwarding.Forwarder

open Lexer (isWord)
open Template (fillSegments_cons fillSegment_slot fillSegment_conditional fillSegment_repeated)

/-- A value without special characters is written as if it were quoted. -/
theorem fixed_eq_worded (name : String) {value : String} (hplain : literalBody value = value) :
    fixed name value = worded name value := by
  have hopen : "=\"" = "=" ++ "\"" := by decide
  rw [fixed, worded, literal_eq, hplain, hopen]
  simp only [String.append_assoc]

theorem reads_worded {name : String} (hname : isWord name = true) (value : String) :
    Lexer.Reads .between (worded name value) .between
      [.word name, .symbol '=', .literal value] :=
  (Lexer.reads_name hname).append (Lexer.reads_literal value)

theorem writes_worded {name : String} (hname : isWord name = true) (value : String) :
    Writes (worded name value) (Parameter.layout ⟨name, .carried⟩) [value] :=
  ⟨_, reads_worded hname value, rfl⟩

theorem writes_known {name : String} (hname : isWord name = true) (value : String) :
    Writes (worded name value) (Parameter.layout ⟨name, .known value⟩) [] :=
  ⟨_, reads_worded hname value, rfl⟩

theorem writes_fixed {name : String} (hname : isWord name = true) {value : String}
    (hplain : literalBody value = value) :
    Writes (fixed name value) (Parameter.layout ⟨name, .known value⟩) [] := by
  rw [fixed_eq_worded name hplain]
  exact writes_known hname value

theorem writes_numbered {name : String} (hname : isWord name = true) (value : Int32) :
    Writes (numbered name value) (Parameter.number name value).layout [] :=
  writes_fixed hname (Lexer.literalBody_int value.toInt)

theorem writes_listed {name : String} (hname : isWord name = true) (values : List String) :
    Writes (name ++ "=" ++ literalList values)
      (Parameter.layout ⟨name, .carriedList values.length⟩) values :=
  Writes.append (Writes.ofTokens (Lexer.reads_name hname)) (Writes.literalList values)

/-- The names of the libraries stand between quotes as they are. -/
theorem tlsLibrary_eq {library : String} (hallowed : library ∈ TlsLib.allowed) :
    " tls.tlslib=\"" ++ (library ++ "\"") = " " ++ worded "tls.tlslib" library := by
  have hplain : literalBody library = library := by
    rcases List.mem_cons.mp hallowed with rfl | hallowed
    · decide +kernel
    · rcases List.mem_singleton.mp hallowed with rfl
      decide +kernel
  have hname : " tls.tlslib=\"" = " " ++ "tls.tlslib=\"" := by decide
  have hopen : "tls.tlslib" ++ "=\"" = "tls.tlslib=\"" := by decide
  rw [← fixed_eq_worded "tls.tlslib" hplain, fixed, hopen, hname]
  simp only [String.append_assoc]

theorem tlsChoice_eq {choice : Option String}
    (hlibrary : ∀ library, choice = some library → library ∈ TlsLib.allowed) :
    choice.elim "" (fun library => " tls.tlslib=\"" ++ (library ++ "\"")) =
      choice.elim "" fun library => " " ++ worded "tls.tlslib" library := by
  cases choice with
  | none => rfl
  | some library => exact tlsLibrary_eq (hlibrary library rfl)

/-- The fields behind the identity of the cluster begin with the quote that ends its last part. -/
theorem unlines_messageFields : Template.unlines messageFields =
    "\"" ++ Template.unlines (")" :: messageFields.tail) := by
  have hfirst : messageFields = ("\"" ++ ")") :: messageFields.tail := by decide
  rw [hfirst, Template.unlines_cons, List.tail_cons, Template.unlines_cons]
  simp only [String.append_assoc]

/-- What the template finds under each name. -/
structure Finds (config : TenantConfig) (ctx : ClusterContext) (data : Json) : Prop where
  spool : Template.memberOf data "spool_dir" = .str Node.spoolDirectory
  statistics : Template.memberOf data "pstats_script" = .str Node.statsProgramPath
  action : Template.memberOf data "action_name" = .str actionName
  project : Template.memberOf data "project_name" = .str (literalBody ctx.projectName)
  cluster : Template.memberOf data "cluster_name" = .str (literalBody ctx.clusterName)
  uid : Template.memberOf data "cluster_uid" = .str (literalBody ctx.clusterUid)
  library : Template.memberOf data "tls_lib" =
    Json.ofOption .str (config.enabledTls.bind TlsConfig.tlsLib)
  parameters : Template.memberOf data "action_params" = Json.texts (actionParameters config)
  filters : Template.memberOf data "filters" =
    Json.texts (config.loggingRules.map filterExpression)

theorem finds_configurationData (config : TenantConfig) (ctx : ClusterContext) :
    Finds config ctx (configurationData config ctx) := by
  have hnodup : ["spool_dir", "pstats_script", "action_name", "project_name", "cluster_name",
      "cluster_uid", "tls_lib", "action_params", "filters"].Nodup := by decide
  constructor <;> exact Template.memberOf_object (by exact hnodup) (by simp)

/-- The text that the template is filled in with, taken apart at the quotes around what it
carries. -/
theorem configuration_eq {config : TenantConfig} {ctx : ClusterContext}
    (hlibrary : ∀ library, config.enabledTls.bind TlsConfig.tlsLib = some library →
      library ∈ TlsLib.allowed) :
    configuration config ctx = .ok
      (preamble ++ literal ctx.projectName ++ separator ++ literal ctx.clusterName ++ separator ++
        literal ctx.clusterUid ++ otherFields ++
        (config.enabledTls.bind TlsConfig.tlsLib).elim "" (fun library =>
          " " ++ worded "tls.tlslib" library) ++
        actionHead ++
        String.join ((actionParameters config).map fun line => "    " ++ (line ++ "\n")) ++
        actionEnd ++
        String.join ((config.loggingRules.map filterExpression).map fun filter =>
          "if " ++ (filter ++ " " ++ blockBody))) := by
  have hfound := finds_configurationData config ctx
  have hfilled : ∀ library, config.enabledTls.bind TlsConfig.tlsLib = some library →
      library ≠ "" := by
    rintro library hsome rfl
    exact absurd (hlibrary "" hsome) (by decide)
  have hopen : "  constant(value=\"" = "  constant(value=" ++ "\"" := by decide
  have hclose : "\")\n" = "\"" ++ ")\n" := by decide
  have hblock : " then \x7b\n" = " " ++ "then \x7b\n" := by decide
  -- The parts of the template, each with the text of the member that it names.
  refine Eq.trans (fillSegments_cons rfl
    (fillSegments_cons (fillSegment_slot hfound.spool)
    (fillSegments_cons rfl
    (fillSegments_cons (fillSegment_slot hfound.project)
    (fillSegments_cons rfl
    (fillSegments_cons (fillSegment_slot hfound.cluster)
    (fillSegments_cons rfl
    (fillSegments_cons (fillSegment_slot hfound.uid)
    (fillSegments_cons rfl
    (fillSegments_cons (fillSegment_conditional hfound.library hfilled fun library hone =>
      fillSegments_cons rfl
      (fillSegments_cons (fillSegment_slot hone)
      (fillSegments_cons rfl rfl)))
    (fillSegments_cons rfl
    (fillSegments_cons (fillSegment_slot hfound.statistics)
    (fillSegments_cons rfl
    (fillSegments_cons (fillSegment_slot hfound.action)
    (fillSegments_cons rfl
    (fillSegments_cons (fillSegment_repeated hfound.parameters fun _ => rfl)
    (fillSegments_cons rfl
    (fillSegments_cons (fillSegment_repeated hfound.filters fun _ => rfl)
      rfl)))))))))))))))))) (congrArg Except.ok ?_)
  -- In the template the quotes belong to the fixed parts; here they go to the texts between them.
  simp only [tlsChoice_eq hlibrary, hopen, hclose, unlines_messageFields, hblock, preamble,
    separator, otherFields, actionHead, actionEnd, blockBody, literal_eq, Template.written,
    String.append_assoc, String.append_empty]

/-- An optional text has a place if it is there. -/
theorem writesEach_option {α : Type} {text : String → String} {layout : α → Layout} {item : α}
    (hwrites : ∀ value, Writes (text value) (layout item) [value]) (value : Option String) :
    WritesEach (value.toList.map text) ((if value.isSome then [item] else []).map layout)
      value.toList := by
  cases value with
  | none => exact WritesEach.nil
  | some value => exact WritesEach.singleton (hwrites value)

/-- A list of texts has its places unless it is empty. -/
theorem writesEach_unlessEmpty {α : Type} {text : String} {layout : α → Layout} {item : α}
    {values : List String} (hwrites : Writes text (layout item) values) :
    WritesEach (if values = [] then [] else [text])
      ((if values.length = 0 then [] else [item]).map layout) values := by
  cases values with
  | nil => exact WritesEach.nil
  | cons value values => exact WritesEach.singleton hwrites

/-- What carries no text has no places. -/
theorem writesEach_bare {α : Type} {text : α → String} {layout : α → Layout}
    (hwrites : ∀ item, Writes (text item) (layout item) []) (items : List α) :
    WritesEach (items.map text) (items.map layout) [] := by
  have hall := WritesEach.map hwrites items
  rwa [List.flatMap_eq_nil_iff.mpr fun _ _ => rfl] at hall

/-- Every parameter is one assignment. -/
theorem writesEach_tlsParameters (tls : TlsConfig) :
    WritesEach (tlsParameters tls) ((tlsShape tls).parameters.map Parameter.layout)
      (tlsTexts tls) := by
  have hpaths : WritesEach [fixed "tls" "on", worded "tls.caCert" Node.tlsCaCert,
      worded "tls.myCert" Node.tlsCert, worded "tls.myPrivKey" Node.tlsKey] _ _ :=
    .cons (writes_fixed (by decide) (by decide)) (.cons (writes_known (by decide) _)
      (.cons (writes_known (by decide) _) (.singleton (writes_known (by decide) _))))
  have hmode : WritesEach (tls.authMode.toList.map (worded "tls.authMode")) _ _ :=
    writesEach_option (writes_worded (by decide)) tls.authMode
  have hlist : Writes ("tls.permittedPeer" ++ "=" ++ literalList tls.permittedPeer) _ _ :=
    writes_listed (by decide) tls.permittedPeer
  have hname : "tls.permittedPeer" ++ "=" = "tls.permittedPeer=" := by decide
  rw [hname] at hlist
  have hall := (hpaths.append hmode).append (writesEach_unlessEmpty hlist)
  simp only [tlsShape, TlsShape.parameters, List.map_append]
  exact hall

theorem writesEach_actionParameters (config : TenantConfig) :
    WritesEach (actionParameters config) ((shape config).parameters.map Parameter.layout)
      ([config.target] ++ config.enabledTls.toList.flatMap tlsTexts) := by
  have htarget : WritesEach [worded "target" config.target, numbered "port" config.port,
      fixed "Template" "SyslogForwarderTemplate"] _ _ :=
    .cons (writes_worded (by decide) config.target) (.cons (writes_numbered (by decide) config.port)
      (.singleton (writes_fixed (by decide) (by decide))))
  have hrebind : WritesEach (config.rebindInterval.toList.map (numbered "rebindInterval")) _ _ :=
    writesEach_bare (writes_numbered (by decide)) config.rebindInterval.toList
  have htimeout : WritesEach (config.timeout.toList.map (numbered "timeout")) _ _ :=
    writesEach_bare (writes_numbered (by decide)) config.timeout.toList
  have hretry : WritesEach
      (config.resumeRetryCount.toList.map (numbered "action.resumeRetryCount")) _ _ :=
    writesEach_bare (writes_numbered (by decide)) config.resumeRetryCount.toList
  have hreport : WritesEach (config.reportSuspensionContinuation.toList.map fun report =>
      fixed "action.reportSuspensionContinuation" (if report then "on" else "off")) _ _ :=
    writesEach_bare (fun report => writes_fixed (by decide) (by cases report <;> decide))
      config.reportSuspensionContinuation.toList
  have hqueue : WritesEach [fixed "queue.type" "LinkedList", fixed "queue.size" "100000",
      fixed "queue.filename" "rsyslog-relp-queue",
      worded "queue.spoolDirectory" Node.spoolDirectory, fixed "queue.maxDiskSpace" "512m",
      fixed "queue.saveOnShutdown" "on"] _ _ :=
    .cons (writes_fixed (by decide) (by decide)) (.cons (writes_fixed (by decide) (by decide))
      (.cons (writes_fixed (by decide) (by decide)) (.cons (writes_known (by decide) _)
        (.cons (writes_fixed (by decide) (by decide))
          (.singleton (writes_fixed (by decide) (by decide)))))))
  have htls : WritesEach (config.enabledTls.toList.flatMap tlsParameters)
      (((config.enabledTls.map tlsShape).toList.flatMap TlsShape.parameters).map Parameter.layout)
      (config.enabledTls.toList.flatMap tlsTexts) := by
    cases config.enabledTls with
    | none => exact WritesEach.nil
    | some tls => simpa using writesEach_tlsParameters tls
  have hall := ((((((htarget.append hrebind).append htimeout).append hretry).append hreport).append
    hqueue).append htls)
  simp only [shape, Shape.parameters, List.map_append, List.map_map]
  exact hall

theorem writes_severity (severity : Int32) :
    Writes ("$syslogseverity <= " ++ toString severity.toInt ++ " ")
      (Layout.ofText "$syslogseverity <= " ++ [some (.word (toString severity.toInt))]) [] := by
  have hstart : Writes "$syslogseverity <= " (Layout.ofText "$syslogseverity <= ") [] :=
    Writes.ofText (by decide +kernel)
  rw [String.append_assoc]
  exact hstart.append (Writes.ofTokens (Lexer.reads_numeral severity.toInt))

theorem writes_programNames (names : List String) :
    Writes ("$programname == " ++ literalList names ++ " ")
      (Layout.ofText "$programname == " ++ Layout.bracketed names.length) names := by
  have hstart : Writes "$programname == " (Layout.ofText "$programname == ") [] :=
    Writes.ofText (by decide +kernel)
  have hblank : Writes " " [] [] := ⟨[], by decide, rfl⟩
  simpa using (hstart.append (Writes.literalList names)).append hblank

/-- A pattern is matched with one outcome or the other. -/
theorem writes_match (found : Bool) (pattern : String) :
    Writes ("re_match($msg, " ++ literal pattern ++
      (if found then ") == 1" else ") == 0") ++ " ") (matchLayout found) [pattern] := by
  have hstart : Writes "re_match($msg, " (Layout.ofText "re_match($msg, ") [] :=
    Writes.ofText (by decide +kernel)
  have hend : Writes ((if found then ") == 1" else ") == 0") ++ " ")
      (Layout.ofText (if found then ") == 1 " else ") == 0 ")) [] := by
    cases found <;> exact Writes.ofText (by decide +kernel)
  rw [String.append_assoc]
  simpa [matchLayout] using (hstart.append (Writes.literal pattern)).append hend

/-- A blank behind several texts stands behind the last of them. -/
theorem intercalate_blank (separator : String) {texts : List String} (hne : texts ≠ []) :
    (" " ++ separator).intercalate texts ++ " " = separator.intercalate (texts.map (· ++ " ")) := by
  induction texts with
  | nil => exact absurd rfl hne
  | cons text texts ih =>
      cases texts with
      | nil => simp
      | cons next texts =>
          rw [String.intercalate_cons_cons, String.append_assoc, ih (List.cons_ne_nil next texts),
            List.map_cons, List.map_cons, List.map_cons, String.intercalate_cons_cons]
          simp only [String.append_assoc]

theorem map_clauses (rule : LoggingRule) :
    (clauses rule).map (· ++ " ") =
      (if rule.programNames = [] then []
        else ["$programname == " ++ literalList rule.programNames ++ " "]) ++
      (rule.severity.toList.map fun n => "$syslogseverity <= " ++ toString n.toInt ++ " ") ++
      ((rule.messageContent.bind (·.regex)).toList.map fun pattern =>
        "re_match($msg, " ++ literal pattern ++ ") == 1" ++ " ") ++
      ((rule.messageContent.bind (·.exclude)).toList.map fun pattern =>
        "re_match($msg, " ++ literal pattern ++ ") == 0" ++ " ") := by
  by_cases hnames : rule.programNames = [] <;> cases hcontent : rule.messageContent <;>
    simp [clauses, hnames, hcontent, Function.comp_def]

/-- Every clause is read with the blank behind it. -/
theorem writesEach_clauses (rule : LoggingRule) :
    WritesEach ((clauses rule).map (· ++ " ")) (clauseLayouts (ruleShape rule))
      (ruleTexts rule) := by
  have hnames := @writesEach_unlessEmpty Layout _ id _ _ (writes_programNames rule.programNames)
  have hseverity := writesEach_bare writes_severity rule.severity.toList
  have hregex := @writesEach_option Layout _ id (matchLayout true) (writes_match true)
    (rule.messageContent.bind (·.regex))
  have hexclude := @writesEach_option Layout _ id (matchLayout false) (writes_match false)
    (rule.messageContent.bind (·.exclude))
  have hall := ((hnames.append hseverity).append hregex).append hexclude
  rw [List.map_id, List.map_id, List.map_id, List.append_nil] at hall
  rw [map_clauses]
  exact hall

/-- The expression of a filter, with the blank behind it that ends its last word. -/
theorem writes_filterExpression (rule : LoggingRule) :
    Writes (filterExpression rule ++ " ")
      ([some (.word "and")].intercalate (clauseLayouts (ruleShape rule))) (ruleTexts rule) := by
  have hand : Writes "and " [some (.word "and")] [] := ⟨[.word "and"], by decide, rfl⟩
  have heach := writesEach_clauses rule
  cases hclauses : clauses rule with
  | nil =>
      rw [hclauses, List.map_nil] at heach
      obtain ⟨hlayouts, htexts⟩ := heach.eq_nil
      rw [filterExpression, hclauses, hlayouts, htexts]
      exact ⟨[], by decide, rfl⟩
  | cons clause rest =>
      have hblank := intercalate_blank "and " (List.cons_ne_nil clause rest)
      rw [filterExpression, hclauses]
      rw [hclauses] at heach
      exact hblank ▸ heach.intercalate hand

/-- A filter is written as one block. -/
theorem writes_block (rule : LoggingRule) :
    Writes ("if " ++ (filterExpression rule ++ " " ++ blockBody)) (blockLayout (ruleShape rule))
      (ruleTexts rule) := by
  have hif : Writes "if " [some (.word "if")] [] := ⟨[.word "if"], by decide, rfl⟩
  have hbody := writes_fixedText blockBody (by simp [fixedTexts])
  simpa [blockLayout] using hif.append ((writes_filterExpression rule).append hbody)

/-- The choice of the library is written if there is one. -/
theorem writes_tlsLibrary (tls : Option TlsConfig) :
    Writes ((tls.bind TlsConfig.tlsLib).elim "" fun library => " " ++ worded "tls.tlslib" library)
      (if (tls.map tlsShape).any (·.tlsLib) then (Parameter.mk "tls.tlslib" .carried).layout
        else []) (tls.bind TlsConfig.tlsLib).toList := by
  have hblank : Writes " " [] [] := ⟨[], by decide, rfl⟩
  cases tls with
  | none => exact Writes.empty
  | some tls =>
      cases hlibrary : tls.tlsLib with
      | none => simpa [tlsShape, hlibrary] using Writes.empty
      | some library =>
          simpa [tlsShape, hlibrary] using hblank.append (writes_worded (by decide) library)

/-- What stands in front of the blocks of a configuration. -/
def declarations (config : TenantConfig) (ctx : ClusterContext) : String :=
  preamble ++ literal ctx.projectName ++ separator ++ literal ctx.clusterName ++ separator ++
    literal ctx.clusterUid ++ otherFields ++
    (config.enabledTls.bind TlsConfig.tlsLib).elim "" (fun library =>
      " " ++ worded "tls.tlslib" library) ++
    actionHead ++
    String.join ((actionParameters config).map fun line => "    " ++ (line ++ "\n")) ++
    actionEnd

/-- The texts that stand in front of the blocks. -/
def declarationTexts (config : TenantConfig) (ctx : ClusterContext) : List String :=
  [ctx.projectName, ctx.clusterName, ctx.clusterUid] ++
    (config.enabledTls.bind (·.tlsLib)).toList ++
    ([config.target] ++ config.enabledTls.toList.flatMap tlsTexts)

theorem writes_declarations (config : TenantConfig) (ctx : ClusterContext) :
    Writes (declarations config ctx) (shape config).declarations
      (declarationTexts config ctx) := by
  have hindent : Writes "    " [] [] := ⟨[], by decide, rfl⟩
  have hline : Writes "\n" [] [] := ⟨[], by decide, rfl⟩
  have hparameters : Writes (String.join ((actionParameters config).map fun line =>
      "    " ++ (line ++ "\n"))) ((shape config).parameters.flatMap Parameter.layout)
      ([config.target] ++ config.enabledTls.toList.flatMap tlsTexts) := by
    simpa [List.flatMap_def, Function.comp_def] using
      (WritesEach.between hindent hline (writesEach_actionParameters config)).join
  -- The parts in the order of the file, with the places that each of them has.
  have hpreamble := writes_fixedText preamble (by simp [fixedTexts])
  have hseparator := writes_fixedText separator (by simp [fixedTexts])
  have hfields := writes_fixedText otherFields (by simp [fixedTexts])
  have hhead := writes_fixedText actionHead (by simp [fixedTexts])
  have hend := writes_fixedText actionEnd (by simp [fixedTexts])
  have hidentity := ((((hpreamble.append (Writes.literal ctx.projectName)).append hseparator).append
    (Writes.literal ctx.clusterName)).append hseparator).append (Writes.literal ctx.clusterUid)
  have haction := (((hidentity.append hfields).append (writes_tlsLibrary config.enabledTls)).append
    hhead).append hparameters
  have hall := haction.append hend
  simp only [List.append_nil, List.nil_append] at hall
  exact hall

/-- The configuration has the layout of the shape of its document, and carries its texts. -/
theorem exists_writes {config : TenantConfig} {ctx : ClusterContext}
    (hlibrary : ∀ library, config.enabledTls.bind TlsConfig.tlsLib = some library →
      library ∈ TlsLib.allowed) :
    ∃ text, configuration config ctx = .ok text ∧
      Writes text (shape config).layout (carriedTexts config ctx) := by
  have hblocks : Writes (String.join ((config.loggingRules.map filterExpression).map fun filter =>
      "if " ++ (filter ++ " " ++ blockBody))) ((shape config).rules.flatMap blockLayout)
      (config.loggingRules.flatMap ruleTexts) := by
    simpa [shape, List.flatMap_def, Function.comp_def] using
      (WritesEach.map writes_block config.loggingRules).join
  exact ⟨_, configuration_eq hlibrary, (writes_declarations config ctx).append hblocks⟩

/-- A library that was accepted is one of those that there are. -/
theorem mem_allowed_of_validate {config : TenantConfig} {ctx : ClusterContext}
    (hvalid : config.validate ctx = []) {library : String}
    (hlibrary : config.enabledTls.bind TlsConfig.tlsLib = some library) :
    library ∈ TlsLib.allowed := by
  obtain ⟨tls, henabled, hlib⟩ := Option.bind_eq_some_iff.mp hlibrary
  obtain ⟨htls, -⟩ := Option.filter_eq_some_iff.mp henabled
  simp only [TenantConfig.validate, htls, checkTls, List.append_eq_nil_iff, Option.toList_some,
    List.flatMap_singleton] at hvalid
  obtain ⟨⟨-, ⟨⟨-, hchecked⟩, -⟩, -⟩, -⟩ := hvalid
  rw [hlib] at hchecked
  simpa [checkAllowed] using hchecked

/-- The configuration of a document without faults, in any cluster, can be read.  Its tokens are
those of the layout, which the shape of the document decides on, with each text as one literal in its
place; there is one block for each filter, and one assignment for each parameter of the action. -/
theorem exists_tokens_of_validate {config : TenantConfig} {ctx : ClusterContext}
    (hvalid : config.validate ctx = []) (other : ClusterContext) :
    ∃ text tokens, configuration config other = .ok text ∧ lex text = some tokens ∧
      (shape config).layout.fill (carriedTexts config other) = some tokens ∧
      tokens.count (.word "if") = config.loggingRules.length ∧
      WritesEach (actionParameters config) ((shape config).parameters.map Parameter.layout)
        ([config.target] ++ config.enabledTls.toList.flatMap tlsTexts) ∧
      ((shape config).parameters.map (·.name)).Nodup := by
  obtain ⟨text, htext, hwrites⟩ :=
    @exists_writes config other fun _ => mem_allowed_of_validate hvalid
  obtain ⟨tokens, htokens, hfill⟩ := hwrites.lex
  have hcount : tokens.count (.word "if") = config.loggingRules.length := by
    rw [Layout.count_of_fill (by simp) hfill, count_layout]
    exact List.length_map _
  exact ⟨text, tokens, htext, htokens, hfill, hcount, writesEach_actionParameters config,
    nodup_names (shape config)⟩

/-- A document whose texts try to end the literals that they stand in. -/
def hostile : TenantConfig :=
  ⟨"10.2.64.54", 80,
    [⟨["a\" then \x7b stop \x7d if \"", "b\\"], some 3, some ⟨some "\" then", some "\\."⟩⟩,
     ⟨["sshd"], none, none⟩],
    some ⟨true, some "relp-tls", ["peer\" port=\"1", "\\"], some "name", some "gnutls"⟩, some 60,
    none, none, some true, some ⟨true, some "audit-rules"⟩⟩

/-- A cluster whose name does so as well. -/
def hostileContext : ClusterContext :=
  ⟨"dev\\", "a\"\n#", "", "1.31.4", [], [], false⟩

theorem hostile_tokens :
    hostile.validate .sample = [] ∧
    ∃ text tokens, configuration hostile hostileContext = .ok text ∧ lex text = some tokens ∧
      (shape hostile).layout.fill (carriedTexts hostile hostileContext) = some tokens ∧
      tokens.count (.word "if") = 2 ∧
      WritesEach (actionParameters hostile) ((shape hostile).parameters.map Parameter.layout)
        ["10.2.64.54", "name", "peer\" port=\"1", "\\"] ∧
      ((shape hostile).parameters.map (·.name)).Nodup :=
  have hvalid : hostile.validate .sample = [] := by decide +kernel
  ⟨hvalid, exists_tokens_of_validate hvalid hostileContext⟩

end LogForwarding.Forwarder
