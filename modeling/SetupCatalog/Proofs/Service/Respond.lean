import SetupCatalog.Proofs.Failure
import SetupCatalog.Proofs.Json.Bytes
import SetupCatalog.Proofs.Service.Payload
import SetupCatalog.Service.Request

/-!
# What the service answers

A request `Leads` to a resource if its address can be taken apart, its body can be sent, its host
has a name, and its path and its method stand for the resource. A request that leads nowhere is
refused without a body (`respond_of_not_leads`). One that leads to the discovery gets a report, or
an object with a message that says what is wrong, and never anything else (`respond_discovery`).

Scripts that are sent inline get the report on just these scripts, and a value that carries no
scripts is refused with the message of `Refused` (`respond_inline`). So what is said there about
values holds of requests. `respond_payload` goes all the way from the scripts to the report: through
the document that carries them, its bytes in UTF-8, the address and the route.
-/

namespace SetupCatalog.Service

open Text

/-! ## Where a request leads -/

/-- A request leads to a resource, with a method that the resource allows. -/
structure Leads (r : Request) (resource : Resource) (method : Method) : Prop where
  /-- The body can be sent. -/
  sendable : r.body.isSendable = true
  /-- The address leads to the resource on a host that has a name. -/
  route : ∃ address, Address.ofText r.path = .ok address ∧ Host.hasName address.host = true ∧
    Route.ofRequest address.scheme (Method.ofName? r.method) address.path =
      .resource resource method

/-- A request is answered by what it leads to. -/
theorem respond_of_leads {r : Request} {resource : Resource} {method : Method}
    (h : Leads r resource method) (workspace : Location) :
    respond workspace r = .ok (answer workspace r.body resource method) := by
  obtain ⟨address, haddress, hname, hroute⟩ := h.route
  rw [respond, haddress]
  simp only [Except.mapError, bind, Except.bind, h.sendable, hname, hroute]
  rfl

/-- A request that leads nowhere is refused without a body. -/
theorem respond_of_not_leads {workspace : Location} {r : Request} {a : Response}
    (h : respond workspace r = .ok a) (hno : ∀ resource method, ¬ Leads r resource method) :
    a.value = none ∧ a.status ∈ [308, 400, 404, 405] := by
  rw [respond] at h
  cases haddress : Address.ofText r.path with
  | error e =>
    rw [haddress] at h
    cases h
  | ok address =>
    simp only [haddress, Except.mapError, bind, Except.bind] at h
    -- the checks in the order in which a request meets them; behind the last one it leads to a
    -- resource
    cases hsendable : r.body.isSendable with
    | false =>
      rw [hsendable] at h
      cases h
    | true =>
      cases hname : Host.hasName address.host with
      | false =>
        rw [hsendable, hname] at h
        obtain rfl := Except.ok.inj h
        exact ⟨rfl, by decide⟩
      | true =>
        rw [hsendable, hname] at h
        cases hroute :
            Route.ofRequest address.scheme (Method.ofName? r.method) address.path with
        | resource resource method =>
          exact absurd ⟨hsendable, address, haddress, hname, hroute⟩ (hno resource method)
        | moved | wrongMethod | wrongScheme | nowhere =>
          rw [hroute] at h
          obtain rfl := Except.ok.inj h
          exact ⟨rfl, by decide⟩

/-! ## Discoveries -/

/-- What a JSON body carries decides what a discovery comes to. -/
theorem discover_json {workspace : Location} {contentType : Text} {bytes : List UInt8}
    {spaces : Nat} {v : Json}
    (htype : isJsonType (lower (HeaderField.ofText contentType).value) = true)
    (hsize : bytes.length + spaces ≤ maxBody)
    (hread : valueOf (withSpaces bytes spaces) = .ok v) :
    discover workspace (.raw contentType bytes spaces) =
      ((sourcesOf v).mapError Fault.payload).map fun sources => reportOn sources [] := by
  have hsmall : ¬ (contentType ≠ [] ∧ bytes.length + spaces > maxBody) := fun h =>
    absurd h.2 (Nat.not_lt.mpr hsize)
  simp only [discover, if_neg hsmall, htype, if_true, hread, bind, Except.bind]
  cases sourcesOf v <;> rfl

/-- A discovery that comes to something comes to the report on some scripts. -/
theorem exists_report_of_discover {workspace : Location} {body : Body} {v : Json}
    (h : discover workspace body = .ok v) : ∃ sources remarks, v = reportOn sources remarks := by
  cases body with
  | none => cases h
  | raw contentType bytes spaces =>
    rw [discover] at h
    obtain ⟨-, h⟩ := of_ite_throw h
    dsimp only at h
    split at h
    · -- scripts that are sent inline
      obtain ⟨v, -, h⟩ := exists_of_bind h
      obtain ⟨sources, -, h⟩ := exists_of_bind h
      exact ⟨sources, [], (Except.ok.inj h).symm⟩
    · -- an archive that is uploaded
      obtain ⟨-, h⟩ := of_ite_throw h
      obtain ⟨upload, -, h⟩ := exists_of_bind h
      cases upload with
      | none => cases h
      | some file =>
        obtain ⟨-, h⟩ := of_ite_throw h
        obtain ⟨-, h⟩ := of_ite_throw h
        rw [reportOnArchive] at h
        obtain ⟨fresh, -, h⟩ := exists_of_bind h
        obtain ⟨disk, -, h⟩ := exists_of_bind h
        obtain ⟨found, -, h⟩ := exists_of_bind h
        exact ⟨_, _, (Except.ok.inj h).symm⟩

/-- What is answered to a request for a discovery. -/
theorem respond_of_leads_discovery {r : Request} (h : Leads r .discovery .post)
    (workspace : Location) :
    respond workspace r = .ok (match discover workspace r.body with
      | .ok v => ⟨200, some v⟩
      | .error fault => fault.response) :=
  respond_of_leads h workspace

/-- What is answered to a request that fails with a message. -/
def failure (status : Nat) (message : Text) : Response :=
  ⟨status, some (.object [("error".toList, .text message)])⟩

/-- **A discovery gets a report or a message.** The status tells whether the request was a bad one
or something went wrong with it afterwards; in the latter case the message says so. -/
theorem respond_discovery {r : Request} (h : Leads r .discovery .post) (workspace : Location) :
    (∃ sources remarks,
      respond workspace r = .ok ⟨200, some (reportOn sources remarks)⟩) ∨
    ∃ fault, discover workspace r.body = .error fault ∧
      respond workspace r = .ok (if fault.isBadRequest then failure 400 fault.cause
        else failure 500 ("Processing failed: ".toList ++ fault.cause)) := by
  rw [respond_of_leads_discovery h]
  cases hdiscover : discover workspace r.body with
  | ok v =>
    obtain ⟨sources, remarks, rfl⟩ := exists_report_of_discover hdiscover
    exact Or.inl ⟨sources, remarks, rfl⟩
  | error fault =>
    refine Or.inr ⟨fault, rfl, congrArg Except.ok ?_⟩
    show fault.response = _
    rw [Fault.response, Fault.status, Fault.message]
    split <;> rfl

/-! ## Scripts that are sent inline -/

/-- **Scripts that are sent inline get the report on just these scripts.** A value that carries no
scripts is a bad request, with the message that says why. -/
theorem respond_inline {r : Request} (h : Leads r .discovery .post) {contentType : Text}
    {bytes : List UInt8} {spaces : Nat} {v : Json} (hbody : r.body = .raw contentType bytes spaces)
    (htype : isJsonType (lower (HeaderField.ofText contentType).value) = true)
    (hsize : bytes.length + spaces ≤ maxBody) (hread : valueOf (withSpaces bytes spaces) = .ok v)
    (workspace : Location) :
    (∀ sources, Carries v sources →
      respond workspace r = .ok ⟨200, some (reportOn sources [])⟩) ∧
    ∀ message, Refused v message → respond workspace r = .ok (failure 400 message) := by
  rw [respond_of_leads_discovery h, hbody, discover_json htype hsize hread]
  refine ⟨fun sources hcarries => ?_, fun message hrefused => ?_⟩
  · rw [sourcesOf_eq_ok_iff.mpr hcarries]
    rfl
  · obtain ⟨fault, hfault, rfl⟩ := sourcesOf_failsWith_iff.mpr hrefused
    rw [hfault]
    rfl

/-- Three containers are nested in a payload: the object, the list and its items. -/
theorem fitsIn_payload {levels : Nat} (hlevels : 3 ≤ levels) (sources : List Source) :
    Json.FitsIn levels (payload sources) := by
  obtain ⟨levels, rfl⟩ := Nat.exists_eq_add_of_le hlevels
  rw [Nat.add_comm]
  refine .object fun field hfield => ?_
  obtain rfl := List.mem_singleton.mp hfield
  refine .array fun item hitem => ?_
  obtain ⟨s, -, rfl⟩ := List.mem_map.mp hitem
  refine .object fun field hfield => ?_
  simp only [List.mem_cons, List.not_mem_nil, or_false] at hfield
  rcases hfield with rfl | rfl <;> exact .text levels _

/-- A payload is read from the bytes of its document. -/
theorem valueOf_payload (indent : Option Int) (sources : List Source) :
    valueOf (Utf8.encode (Json.write indent (payload sources))) = .ok (payload sources) := by
  have hdenotes := Json.denotes_write (standard_payload (some maxDigits) sources) indent
  have hread : Json.readBytes maxNesting (Utf8.encode (Json.write indent (payload sources))) =
      .ok (payload sources) :=
    Json.readBytes_encode (Json.startsAscii_write_object indent _ _ _) hdenotes
      (fitsIn_payload (by decide) sources)
  rw [valueOf, hread]
  rfl

/-- The request for a discovery that carries a document. -/
def discoveryRequest (document : Text) : Request :=
  ⟨"POST".toList, "/api/discover".toList, .raw "application/json".toList (Utf8.encode document) 0⟩

/-- A request to discover leads to that route. -/
theorem leads_discoveryRequest (document : Text) :
    Leads (discoveryRequest document) .discovery .post := by
  have haddress : Address.ofText "/api/discover".toList =
      .ok ⟨"http".toList, "localhost".toList, "/api/discover".toList⟩ := by
    -- an answer is compared where two of them can be
    have hfound : (Address.ofText "/api/discover".toList).toOption =
        some ⟨"http".toList, "localhost".toList, "/api/discover".toList⟩ := by
      decide +kernel
    cases h : Address.ofText "/api/discover".toList with
    | error e =>
      rw [h] at hfound
      cases hfound
    | ok address =>
      rw [h] at hfound
      exact congrArg Except.ok (Option.some.inj hfound)
  have hroute : Route.ofRequest "http".toList (Method.ofName? "POST".toList)
      "/api/discover".toList = .resource .discovery .post := by
    decide +kernel
  exact ⟨rfl, _, haddress, by decide +kernel, hroute⟩

/-- **From scripts to their report.** Scripts that have names and are not too large together get
their report, however the document that carries them is indented. -/
theorem respond_payload {sources : List Source} (hnames : ∀ s ∈ sources, s.name ≠ [])
    (indent : Option Int)
    (hsize : (Utf8.encode (Json.write indent (payload sources))).length ≤ maxBody)
    (workspace : Location) :
    respond workspace (discoveryRequest (Json.write indent (payload sources))) =
      .ok ⟨200, some (reportOn sources [])⟩ := by
  have hread : valueOf (withSpaces (Utf8.encode (Json.write indent (payload sources))) 0) =
      .ok (payload sources) := by
    rw [withSpaces, Nat.zero_min, List.replicate_zero, List.append_nil]
    exact valueOf_payload indent sources
  obtain ⟨hreport, -⟩ :=
    respond_inline (leads_discoveryRequest _) rfl (by decide +kernel) hsize hread workspace
  exact hreport sources (sourcesOf_eq_ok_iff.mp (sourcesOf_payload hnames))

end SetupCatalog.Service
