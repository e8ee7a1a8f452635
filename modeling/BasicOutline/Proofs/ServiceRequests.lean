import BasicOutline.Proofs.FieldLookup
import BasicOutline.Proofs.JsonReading
import BasicOutline.Service

/-! Requests that are sent as JSON values are answered by these values.

The value is written, encoded, and read back on the other side. Whether a path and settings reach an
answer depends on the settings alone, and not on the order of the fields. -/

namespace BasicOutline

theorem Encoding.detect_object (rest : Text) :
    detect (Utf8.encode ('\x7b' :: '"' :: rest)) =
      (.utf8, Utf8.encode ('\x7b' :: '"' :: rest)) := by
  have bytes : Utf8.encode ('\x7b' :: '"' :: rest) = 0x7b :: 0x22 :: Utf8.encode rest := rfl
  have plain : ofZeros (0x7b :: 0x22 :: Utf8.encode rest) = .utf8 := by
    rcases Utf8.encode rest with _ | ⟨third, _ | ⟨fourth, more⟩⟩ <;> rfl
  have unmarked : (marks.find? fun entry =>
      entry.1.isPrefixOf (0x7b :: 0x22 :: Utf8.encode rest)) = none := rfl
  rw [bytes, detect, unmarked, plain]

theorem Settings.ofFields_eq_of_perm {fields others : Json.Fields}
    (distinct : (fields.map Prod.fst).Nodup) (order : fields.Perm others) :
    ofFields fields = ofFields others := by
  have same : ∀ key, fields.get? key = others.get? key :=
    fun key => lookup_eq_of_perm distinct order
  have given : ∀ setting : Setting, setting.given? fields = setting.given? others := by
    intro setting
    simp only [Setting.given?, same]
  simp only [ofFields, Setting.check, given]

namespace Service

open Validation

def Route.target : Route → Text
  | .outline => "/outline".toList
  | .scan => "/scan".toList

theorem answerBytes_encode (fs : FileSystem) (route : Route) {fields : Json.Fields}
    (readable : (Json.object fields).Readable) (filled : fields ≠ []) :
    answerBytes fs route (Utf8.encode (Json.compact (.object fields))) =
      answer fs route (.object fields) := by
  obtain ⟨more, text⟩ : ∃ more, Json.compact (.object fields) = '\x7b' :: '"' :: more := by
    obtain ⟨more, first⟩ := Json.fieldsText_eq_cons .compact 1 filled
    rw [Json.compact, Json.write_object .compact 0 filled, first]
    exact ⟨_, rfl⟩
  have some_bytes : Utf8.encode (Json.compact (.object fields)) ≠ [] := by
    rw [text]
    exact List.cons_ne_nil _ _
  have decoded : Encoding.utf8.decode (Utf8.encode (Json.compact (.object fields))) =
      some (Json.compact (.object fields)) := by
    rw [Encoding.decode, Utf8.decode_encode]
    rfl
  have detected : Encoding.detect (Utf8.encode (Json.compact (.object fields))) =
      (.utf8, Utf8.encode (Json.compact (.object fields))) := by
    rw [text]
    exact Encoding.detect_object more
  rw [answerBytes, detected]
  simp only [if_neg some_bytes, decoded, Option.map_some, Json.read_compact readable]

/-- A value is answered as it was sent. -/
theorem handle_post (fs : FileSystem) (route : Route) {fields : Json.Fields}
    (readable : (Json.object fields).Readable) (filled : fields ≠ []) :
    handle fs ⟨"POST".toList, route.target, .json (.object fields)⟩ =
      answer fs route (.object fields) := by
  have reached : Target.path route.target = .ok route.target := by cases route <;> decide
  have routed : route? route.target = some route := by cases route <;> decide
  have sent : (Body.json (.object fields)).toBytes =
      .ok (Utf8.encode (Json.compact (.object fields))) := by
    rw [Body.toBytes, Json.isFinite_of_readable _ readable, if_pos rfl]
  have posted : Text.spells "post".toList "POST".toList = true := by decide
  have whole : Text.spells "head".toList "POST".toList = false := by decide
  have dispatched := answerBytes_encode fs route readable filled
  rw [handle]
  simp only [reached, sent, bind, Except.bind, Except.mapError, dispatch, routed, posted, if_true,
    dispatched, whole]
  cases answer fs route (.object fields) <;> rfl

def respond (fs : FileSystem) (path : Text) (settings : Settings) : Route → Response
  | .outline => outlineResponse fs path settings
  | .scan => scanResponse fs path settings

/-- A request for a path with settings, the fields in any order. -/
def Posts (route : Route) (path : Text) (settings : Json.Fields) (request : Request) : Prop :=
  ∃ given body : Json.Fields, given.Perm settings ∧
    body.Perm [(route.pathKey, .text path), ("settings".toList, .object given)] ∧
    request = ⟨"POST".toList, route.target, .json (.object body)⟩

section Posts

variable {route : Route} {path : Text} {settings : Json.Fields}

theorem request_of_get? {fields : Json.Fields}
    (named : fields.get? route.pathKey = some (.text path))
    (given : fields.get? "settings".toList = some (.object settings)) :
    request route.pathKey (.object fields) =
      ((Settings.ofFields settings).under (.field "settings".toList)).map (path, ·) := by
  have checked : Check.required fields route.pathKey text = .ok path := by
    rw [Check.required, named]
    rfl
  have rest : requestSettings fields =
      (Settings.ofFields settings).under (.field "settings".toList) := by
    rw [requestSettings, Check.optional, given]
    rfl
  rw [request, Check.object, requestOfFields, checked, rest]
  cases Settings.ofFields settings <;> rfl

theorem handle_of_posts (fs : FileSystem) (distinct : (settings.map Prod.fst).Nodup)
    (readable : Json.ReadableFields settings) {sent : Request}
    (posted : Posts route path settings sent) :
    handle fs sent =
      match Settings.ofFields settings with
      | .error issues => rejected (issues.map (Issue.under (.field "settings".toList)))
      | .ok settings => .ok (respond fs path settings route) := by
  obtain ⟨given, body, order, fields, rfl⟩ := posted
  have apart : route.pathKey ≠ "settings".toList := by cases route <;> decide
  have distinct_given : (given.map Prod.fst).Nodup :=
    (order.map Prod.fst).nodup_iff.mpr distinct
  have distinct_body : (body.map Prod.fst).Nodup := by
    rw [(fields.map Prod.fst).nodup_iff]
    exact List.nodup_cons.mpr ⟨by rwa [List.map_singleton, List.mem_singleton],
      List.nodup_singleton _⟩
  have readable_given : Json.ReadableFields given := by
    rw [Json.readableFields_iff] at readable ⊢
    exact fun field member => readable field (order.mem_iff.mp member)
  have readable_body : Json.ReadableFields body := by
    rw [Json.readableFields_iff]
    intro field member
    have known := fields.mem_iff.mp member
    simp only [List.mem_cons, List.not_mem_nil, or_false] at known
    rcases known with rfl | rfl
    · trivial
    · exact ⟨distinct_given, readable_given⟩
  have named : body.get? route.pathKey = some (.text path) :=
    (lookup_eq_some_iff_mem distinct_body).mpr (fields.mem_iff.mpr List.mem_cons_self)
  have settled : body.get? "settings".toList = some (.object given) :=
    (lookup_eq_some_iff_mem distinct_body).mpr
      (fields.mem_iff.mpr (List.mem_cons_of_mem _ List.mem_cons_self))
  have filled : body ≠ [] := by
    rintro rfl
    cases named
  rw [handle_post fs route ⟨distinct_body, readable_body⟩ filled, answer,
    request_of_get? named settled, Settings.ofFields_eq_of_perm distinct_given order]
  cases Settings.ofFields settings
  · rfl
  · cases route <;> rfl

end Posts

end Service

end BasicOutline
