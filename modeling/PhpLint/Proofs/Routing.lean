import PhpLint.Console.Session

/-! Where output goes in the course of a session. After any actions the board renders log records
once, to the backend of the last switch, and a printer still writes where it wrote when it was made. -/

namespace PhpLint.Console

namespace Action

/-- Whether an action makes another backend current. -/
def switches : Action → Bool
  | .set _ | .reset => true
  | _ => false

def resets : Action → Bool
  | .reset => true
  | _ => false

/-- The handler that an action adds. -/
def added? : Action → Option Handler
  | .addHandler name => some (.other name)
  | _ => none

end Action

/-- The backend of the last switch. Each reset opens a standard backend of its own; the first one is
open at the start. -/
def current (history : List Action) : Backend :=
  match (history.filter Action.switches).getLast? with
  | some (.set id) => .named id
  | some .reset => .standard (history.countP Action.resets)
  | _ => .standard 0

theorem current_set (history : List Action) (id : String) :
    current (history ++ [.set id]) = .named id := by
  simp [current, Action.switches]

theorem current_reset (history : List Action) :
    current (history ++ [.reset]) = .standard (history.countP Action.resets + 1) := by
  simp [current, Action.switches, Action.resets]

theorem resets_quiet (history : List Action) {action : Action} (quiet : action.switches = false) :
    (history ++ [action]).countP Action.resets = history.countP Action.resets := by
  have kept : action.resets = false := by
    cases action with
    | reset => exact quiet
    | _ => rfl
  simp [kept]

theorem current_quiet (history : List Action) {action : Action} (quiet : action.switches = false) :
    current (history ++ [action]) = current history := by
  have switched : (history ++ [action]).filter Action.switches = history.filter Action.switches := by
    simp [quiet]
  rw [current, switched, resets_quiet history quiet, current]

/-- The handlers that do not render: those found at the start, then those added since, each where it
was first added. -/
def otherHandlers (found : List Handler) (history : List Action) : List Handler :=
  found.filter (!·.isRendering) ++
    ((history.filterMap Action.added?).filter (· ∉ found)).eraseDups

theorem eraseDups_concat (handlers : List Handler) (handler : Handler) :
    (handlers ++ [handler]).eraseDups =
      if handler ∈ handlers then handlers.eraseDups else handlers.eraseDups ++ [handler] := by
  rw [List.eraseDups_append]
  by_cases present : handler ∈ handlers <;> simp [List.removeAll, List.eraseDups_cons, present]

theorem otherHandlers_add (found : List Handler) (history : List Action) (name : String) :
    otherHandlers found (history ++ [.addHandler name]) =
      if .other name ∈ otherHandlers found history then otherHandlers found history
      else otherHandlers found history ++ [.other name] := by
  have later : (history ++ [Action.addHandler name]).filterMap Action.added? =
      history.filterMap Action.added? ++ [.other name] := by
    simp [Action.added?]
  by_cases early : .other name ∈ found
  · have present : .other name ∈ otherHandlers found history := by
      simp [otherHandlers, early, Handler.isRendering]
    rw [if_pos present, otherHandlers, later]
    simp [otherHandlers, early]
  · have present : .other name ∈ otherHandlers found history ↔
        .other name ∈ (history.filterMap Action.added?).filter (· ∉ found) := by
      simp [otherHandlers, early]
    have kept : [Handler.other name].filter (· ∉ found) = [.other name] := by simp [early]
    rw [otherHandlers, later, List.filter_append, kept, eraseDups_concat]
    simp only [present]
    split
    · rfl
    · rw [otherHandlers, List.append_assoc]

theorem otherHandlers_quiet (found : List Handler) (history : List Action) {action : Action}
    (quiet : action.added? = none) :
    otherHandlers found (history ++ [action]) = otherHandlers found history := by
  simp [otherHandlers, quiet]

/-- A board as some actions have left it, with the handlers that were found at the start. -/
structure Follows (found : List Handler) (history : List Action) (board : Switchboard) : Prop where
  backend : board.backend = current history
  resets : board.resets = history.countP Action.resets
  renderer : board.handlers.filter (·.isRendering) = [.rendering (current history)]
  others : board.handlers.filter (!·.isRendering) = otherHandlers found history
  level : board.threshold = .info

namespace Follows

variable {found : List Handler} {history : List Action} {board : Switchboard} {action : Action}

theorem switch (follows : Follows found history board) {resets : Nat} {backend : Backend}
    (adds : action.added? = none) (count : (history ++ [action]).countP Action.resets = resets)
    (now : current (history ++ [action]) = backend) :
    Follows found (history ++ [action]) ({ board with resets := resets }.switch backend) where
  backend := now.symm
  resets := count.symm
  renderer := by simp [Switchboard.switch, Handler.isRendering, now]
  others := by
    rw [otherHandlers_quiet found history adds, ← follows.others]
    simp [Switchboard.switch, Handler.isRendering]
  level := rfl

theorem stay (follows : Follows found history board) {handlers : List Handler}
    (stays : action.switches = false)
    (renders : handlers.filter (·.isRendering) = board.handlers.filter (·.isRendering))
    (keeps : handlers.filter (!·.isRendering) = otherHandlers found (history ++ [action])) :
    Follows found (history ++ [action]) { board with handlers := handlers } where
  backend := by rw [current_quiet history stays, follows.backend]
  resets := by rw [resets_quiet history stays, follows.resets]
  renderer := by rw [current_quiet history stays, renders, follows.renderer]
  others := keeps
  level := follows.level

theorem quiet (follows : Follows found history board) (stays : action.switches = false)
    (adds : action.added? = none) : Follows found (history ++ [action]) board :=
  follows.stay stays rfl (by rw [otherHandlers_quiet found history adds, follows.others])

theorem addHandler (follows : Follows found history board) (name : String) :
    Follows found (history ++ [.addHandler name]) (board.addHandler name) := by
  have present : .other name ∈ board.handlers ↔ .other name ∈ otherHandlers found history := by
    simp [← follows.others, Handler.isRendering]
  rw [Switchboard.addHandler]
  split
  next again =>
    refine follows.stay rfl rfl ?_
    rw [otherHandlers_add, if_pos (present.mp again), follows.others]
  next new =>
    refine follows.stay rfl (by simp [Handler.isRendering]) ?_
    rw [otherHandlers_add, if_neg (mt present.mpr new), ← follows.others]
    simp [Handler.isRendering]

end Follows

section Runs

variable (limits : Limits) (rendering : Rendering)

/-- One action leaves the board as the history with that action says. -/
theorem perform_follows {found : List Handler} {history : List Action} {session : Session}
    (follows : Follows found history session.board) (action : Action) :
    Follows found (history ++ [action]) (session.perform limits rendering action).session.board := by
  cases action with
  | set id =>
      exact follows.switch rfl (by simp [Action.resets, follows.resets]) (current_set history id)
  | reset =>
      refine follows.switch rfl (by simp [Action.resets, follows.resets]) ?_
      rw [current_reset, follows.resets]
  | addHandler name => exact follows.addHandler name
  | usePrinter name expand forest =>
      rw [Session.perform]
      cases session.printers.get? name <;> exact follows.quiet rfl rfl
  | _ => exact follows.quiet rfl rfl

theorem run_follows {found : List Handler} {history : List Action} {session : Session}
    (follows : Follows found history session.board) (actions : List Action) :
    Follows found (history ++ actions) (session.run limits rendering actions).board := by
  induction actions generalizing history session with
  | nil => simpa [Session.run] using follows
  | cons action rest ih =>
      have later := ih (perform_follows limits rendering follows action)
      rwa [List.append_assoc, List.singleton_append] at later

end Runs

/-- What a handler writes about a record. -/
def Handler.write? (rendering : Rendering) (record : LogRecord) : Handler → Option Write
  | .rendering backend => some ⟨backend.sink, rendering.record record⟩
  | .other _ => none

theorem Follows.log {found : List Handler} {history : List Action} {board : Switchboard}
    (follows : Follows found history board) (rendering : Rendering) (record : LogRecord) :
    board.log rendering record = if record.level.rank < LogLevel.info.rank then []
      else [⟨(current history).sink, rendering.record record⟩] := by
  have written : board.handlers.filterMap (Handler.write? rendering record) =
      [⟨(current history).sink, rendering.record record⟩] := by
    calc
      board.handlers.filterMap (Handler.write? rendering record) =
          (board.handlers.filter (·.isRendering)).filterMap (Handler.write? rendering record) := by
        rw [List.filterMap_filter]
        congr 1
        funext handler
        cases handler <;> rfl
      _ = _ := by
        rw [follows.renderer]
        rfl
  have logs : board.log rendering record = if record.level.rank < board.threshold.rank then []
      else board.handlers.filterMap (Handler.write? rendering record) := rfl
  rw [logs, follows.level, written]

/-- The analysis logs nothing that is rendered. -/
theorem analyze_log (forest : Forest) (config : Config) (record : LogRecord)
    (logged : record ∈ (Calls.analyze forest config).log) : record.level = .debug := by
  simp only [Calls.analyze] at logged
  split at logged
  · obtain rfl := List.mem_singleton.mp logged
    rfl
  · simp only [List.mem_cons, List.not_mem_nil, or_false] at logged
    rcases logged with rfl | rfl <;> rfl

namespace Session

section Printers

variable (limits : Limits) (rendering : Rendering)

theorem perform_printers (session : Session) (action : Action) {name : String}
    (kept : ∀ layout, action ≠ .openPrinter name layout) :
    (session.perform limits rendering action).session.printers.get? name =
      session.printers.get? name := by
  cases action with
  | openPrinter other layout =>
      have distinct : name ≠ other := by
        rintro rfl
        exact kept layout rfl
      exact session.printers.get?_put_ne _ distinct
  | usePrinter other expand forest =>
      rw [perform]
      cases session.printers.get? other <;> rfl
  | _ => rfl

theorem run_printers (session : Session) {actions : List Action} {name : String}
    (kept : ∀ layout, .openPrinter name layout ∉ actions) :
    (session.run limits rendering actions).printers.get? name = session.printers.get? name := by
  induction actions generalizing session with
  | nil => rfl
  | cons action rest ih =>
      have first := session.perform_printers limits rendering action fun layout same =>
        kept layout (same ▸ List.mem_cons_self)
      rw [run, ih _ fun layout member => kept layout (List.mem_cons_of_mem action member), first]

theorem run_append (session : Session) (first second : List Action) :
    session.run limits rendering (first ++ second) =
      (session.run limits rendering first).run limits rendering second := by
  induction first generalizing session with
  | nil => rfl
  | cons action rest ih => exact ih _

end Printers

/-- A session that starts where some handlers are found and some level is set already. -/
def begun (found : List Handler) (level : LogLevel) : Session :=
  ⟨Switchboard.switch ⟨.standard 0, 0, found, level⟩ (.standard 0), .empty⟩

theorem begun_follows (found : List Handler) (level : LogLevel) :
    Follows found [] (begun found level).board where
  backend := rfl
  resets := rfl
  renderer := by simp [begun, Switchboard.switch, Handler.isRendering, current]
  others := by simp [begun, Switchboard.switch, Handler.isRendering, otherHandlers]
  level := rfl

/-- Text and records that name no destination are written to one backend, a debug record nowhere; and
the session stays as it is. -/
structure WritesTo (limits : Limits) (rendering : Rendering) (session : Session) (backend : Backend) :
    Prop where
  warn (text : String) :
    session.perform limits rendering (.warn text) =
      { session := session
        writes := [⟨backend.sink, rendering.record (.warning text)⟩]
        failure := none }
  debug (text : String) :
    session.perform limits rendering (.debug text) =
      { session := session, writes := [], failure := none }
  echo (markup : String) :
    session.perform limits rendering (.echo markup) =
      { session := session
        writes := [⟨backend.sink, rendering.line markup⟩]
        failure := none }
  print (config : Config) (indent : Int) (expand : Option Bool) (forest : Forest) :
    session.perform limits rendering (.print config indent expand forest) =
      { session := session
        writes := [⟨backend.sink, (config.outline limits indent expand forest).text⟩]
        failure := (config.outline limits indent expand forest).failure }
  analyze (config : Config) (forest : Forest) :
    session.perform limits rendering (.analyze config forest) =
      { session := session
        writes := (Calls.analyze forest config).lines.map fun line => ⟨backend.sink, line⟩
        failure := none }

theorem writesTo_current (limits : Limits) (rendering : Rendering) {found : List Handler}
    {history : List Action} {session : Session} (follows : Follows found history session.board) :
    session.WritesTo limits rendering (current history) where
  warn text := by rw [perform, follows.log]; rfl
  debug text := by rw [perform, follows.log]; rfl
  echo markup := by rw [← follows.backend]; rfl
  print config indent expand forest := by rw [← follows.backend]; rfl
  analyze config forest := by
    have unrendered :
        (Calls.analyze forest config).log.flatMap (session.board.log rendering) = [] := by
      rw [List.flatMap_eq_nil_iff]
      intro record logged
      rw [follows.log, analyze_log forest config record logged]
      rfl
    rw [perform, unrendered, List.append_nil, ← follows.backend]
    rfl

/-- After any actions from the start on, whatever handlers and level were found there, the board has
one rendering handler, for the backend of the last switch, and all other handlers in the order they
were added, and it lets through what is no debug record. So a warning is rendered once, there, a debug
record nowhere, and text without a destination goes there too. A printer writes where text went when
it was opened. -/
theorem run_routes_output (limits : Limits) (rendering : Rendering) (found : List Handler)
    (level : LogLevel) (actions : List Action) :
    begun [] .warning = initial ∧
    let session := (begun found level).run limits rendering actions
    Follows found actions session.board ∧ session.WritesTo limits rendering (current actions) ∧
    ∀ before name layout after, actions = before ++ .openPrinter name layout :: after →
      (∀ other, .openPrinter name other ∉ after) →
      ∀ expand forest, session.perform limits rendering (.usePrinter name expand forest) =
        { session := session
          writes := [⟨(current before).sink, (Outline.print limits layout expand forest).text⟩]
          failure := (Outline.print limits layout expand forest).failure } := by
  refine ⟨rfl, ?_⟩
  intro session
  have follows : Follows found actions session.board :=
    run_follows limits rendering (begun_follows found level) actions
  refine ⟨follows, writesTo_current limits rendering follows, ?_⟩
  rintro before name layout after rfl kept expand forest
  have earlier : Follows found before ((begun found level).run limits rendering before).board :=
    run_follows limits rendering (begun_follows found level) before
  have printer : session.printers.get? name = some ⟨(current before).sink, layout⟩ := by
    have opened : session =
        (((begun found level).run limits rendering before).perform limits rendering
          (.openPrinter name layout)).session.run limits rendering after :=
      run_append limits rendering _ before _
    rw [opened, run_printers limits rendering _ kept, ← earlier.backend]
    exact Keyed.get?_put_self _ name _
  rw [perform, printer]
  rfl

/-- A printer opened at one backend is used when another one is current, and a handler is added
twice. -/
theorem run_routes_switched_session :
    let rendering : Rendering := ⟨fun markup => markup ++ "\n", fun record => record.text ++ "\n"⟩
    let null : Node := ⟨.unknown, .nullLiteral⟩
    let later : List Action := [.addHandler "mail", .reset, .warn "low", .set "b", .set "b"]
    let session := (begun [.rendering (.named "old"), .other "file"] .debug).run .endless rendering
      ([.addHandler "mail", .set "a"] ++ .openPrinter "p" .default :: later)
    (∀ other, .openPrinter "p" other ∉ later) ∧
    session.board.handlers.filter (·.isRendering) = [.rendering (.named "b")] ∧
    session.board.handlers.filter (!·.isRendering) = [.other "file", .other "mail"] ∧
    session.perform .endless rendering (.warn "high") = ⟨session, [⟨"b", "⚠️  high\n"⟩], none⟩ ∧
    session.perform .endless rendering (.debug "low") = ⟨session, [], none⟩ ∧
    session.perform .endless rendering (.usePrinter "p" false [some null]) =
      ⟨session, [⟨"a", "Null @ 0:0\n"⟩], none⟩ := by
  intro rendering null later session
  have kept : ∀ other, .openPrinter "p" other ∉ later := by simp [later]
  obtain ⟨-, follows, writes, printers⟩ := run_routes_output .endless rendering
    [.rendering (.named "old"), .other "file"] .debug
    ([.addHandler "mail", .set "a"] ++ .openPrinter "p" .default :: later)
  refine ⟨kept, follows.renderer, follows.others.trans rfl, writes.warn "high", writes.debug "low", ?_⟩
  rw [printers _ "p" .default later rfl kept]
  rfl

end Session

end PhpLint.Console
