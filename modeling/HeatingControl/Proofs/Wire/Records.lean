import HeatingControl.Proofs.Wire.Fields
import HeatingControl.Wire.Records

/-!
# Values of every type read back

Texts, numbers and the records made of them are read back whatever they hold. A mode and an
override are read back if their texts are those of a mode and an override.
-/
namespace HeatingControl.Wire

@[simp] theorem faithful_text (s : String) : Faithful s := ⟨trivial, rfl⟩

private theorem decodeNat_of_le {n limit : Nat} (h : n ≤ limit) :
    decodeNat limit (.int n) = .ok n := by
  have hrange : (0 : Int) ≤ n ∧ (n : Int) ≤ limit := by omega
  rw [decodeNat, if_pos hrange]
  rfl

private theorem plain_nat {n : Nat} (h : n < UInt64.size) : (Json.int n).Plain := by
  constructor
  · have : (0 : Int) ≤ n := by omega
    have : -(Text.int64Bound : Int) ≤ 0 := by decide
    omega
  · omega

@[simp] theorem faithful_uint8 (n : UInt8) : Faithful n := by
  have hn := n.toNat_lt
  have hsize : UInt8.size = 256 := rfl
  have hlimit : UInt64.size = 18446744073709551616 := rfl
  refine ⟨plain_nat (by omega), ?_⟩
  change (decodeNat (UInt8.size - 1) (.int n.toNat)).map UInt8.ofNat = .ok n
  rw [decodeNat_of_le (by omega)]
  simp [Except.map]

@[simp] theorem faithful_uint32 (n : UInt32) : Faithful n := by
  have hn := n.toNat_lt
  have hsize : UInt32.size = 4294967296 := rfl
  have hlimit : UInt64.size = 18446744073709551616 := rfl
  refine ⟨plain_nat (by omega), ?_⟩
  change (decodeNat (UInt32.size - 1) (.int n.toNat)).map UInt32.ofNat = .ok n
  rw [decodeNat_of_le (by omega)]
  simp [Except.map]

@[simp] theorem faithful_uint64 (n : UInt64) : Faithful n := by
  have hn := n.toNat_lt
  have hsize : UInt64.size = 18446744073709551616 := rfl
  refine ⟨plain_nat (by omega), ?_⟩
  change (decodeNat (UInt64.size - 1) (.int n.toNat)).map UInt64.ofNat = .ok n
  rw [decodeNat_of_le (by omega)]
  simp [Except.map]

section Containers

variable {α : Type} [Wire α]

theorem faithful_list {l : List α} (h : ∀ v ∈ l, Faithful v) : Faithful l := by
  have hitems : Json.PlainItems (l.map encode) ∧ decodeItems (l.map encode) = .ok l := by
    induction l with
    | nil => exact ⟨trivial, rfl⟩
    | cons v l ih =>
      obtain ⟨hv, hl⟩ := List.forall_mem_cons.mp h
      obtain ⟨hplain, hread⟩ := ih hl
      refine ⟨⟨hv.plain, hplain⟩, ?_⟩
      simp only [List.map_cons, decodeItems, hv.reads, hread]
  exact ⟨hitems.1, hitems.2⟩

/-- Null stands for the lack of a value, so nothing else may be written as null. -/
theorem faithful_option {v : Option α} (hnull : ∀ w : α, encode w ≠ .null)
    (h : ∀ w, v = some w → Faithful w) : Faithful v := by
  cases v with
  | none => exact ⟨trivial, rfl⟩
  | some w =>
    refine ⟨(h w rfl).plain, ?_⟩
    change decodeNullable (encode w) = .ok (some w)
    rw [decodeNullable]
    · rw [(h w rfl).reads]
      rfl
    · exact hnull w

end Containers

section Forms

variable {α β ε : Type} [Wire α] [Wire β] {v : α} {b : β}

theorem faithful_via {make : β → α} (hencode : encode v = encode b)
    (hdecode : ∀ j, (decode j : Except Misfit α) = (decode j).map make) (h : Faithful b)
    (hmake : make b = v) : Faithful v := by
  refine ⟨hencode ▸ h.plain, ?_⟩
  rw [hencode, hdecode, h.reads, Except.map, hmake]

theorem faithful_viaChecked {make : β → Except ε α} (hencode : encode v = encode b)
    (hdecode : ∀ j, (decode j : Except Misfit α) =
      match (decode j : Except Misfit β) with
      | .error e => .error e
      | .ok b => match make b with
        | .ok v => .ok v
        | .error _ => .error .otherShape)
    (h : Faithful b) (hmake : make b = .ok v) : Faithful v := by
  refine ⟨hencode ▸ h.plain, ?_⟩
  rw [hencode, hdecode, h.reads]
  simp only [hmake]

end Forms

@[simp] theorem faithful_zoneId (id : ZoneId) : Faithful id :=
  faithful_via (b := id.text) rfl (fun _ => rfl) (faithful_text _) rfl

@[simp] theorem faithful_orderId (id : OrderId) : Faithful id :=
  faithful_via (b := id.text) rfl (fun _ => rfl) (faithful_text _) rfl

@[simp] theorem faithful_accountId (id : AccountId) : Faithful id :=
  faithful_via (b := id.text) rfl (fun _ => rfl) (faithful_text _) rfl

@[simp] theorem faithful_hardwareId (id : HardwareId) : Faithful id :=
  faithful_via (b := id.text) rfl (fun _ => rfl) (faithful_text _) rfl

@[simp] theorem faithful_planningId (id : PlanningId) : Faithful id :=
  faithful_via (b := id.number) rfl (fun _ => rfl) (faithful_uint32 _) rfl

@[simp] theorem faithful_slotId (id : SlotId) : Faithful id :=
  faithful_via (b := id.number) rfl (fun _ => rfl) (faithful_uint32 _) rfl

@[simp] theorem faithful_day (d : DayOfWeek) : Faithful d := by
  refine faithful_viaChecked (b := UInt8.ofNat d.index) rfl (fun _ => rfl) (faithful_uint8 _) ?_
  cases d <;> rfl

theorem faithful_zoneMode {m : ZoneMode} (h : ZoneMode.parse m.display = .ok m) : Faithful m :=
  faithful_viaChecked (b := m.display) rfl (fun _ => rfl) (faithful_text _) h

theorem faithful_override {o : Override} (h : Override.parse o.display = o) : Faithful o :=
  faithful_via (b := o.display) rfl (fun _ => rfl) (faithful_text _) h

@[simp] theorem faithful_accountType (t : AccountType) : Faithful t := by
  cases t <;> exact ⟨trivial, rfl⟩

@[simp] theorem faithful_parameterKind (k : ParameterKind) : Faithful k := by
  cases k <;> exact ⟨trivial, rfl⟩

@[simp] theorem faithful_parameterValue (v : ParameterValue) : Faithful v := by
  cases v with
  | text s => exact ⟨trivial, rfl⟩
  | integer i =>
    have hlow := i.le_toInt
    have hhigh := i.toInt_lt
    have hbound : Text.int64Bound = 9223372036854775808 := rfl
    have hsize : UInt64.size = 18446744073709551616 := rfl
    refine ⟨⟨by omega, by omega⟩, ?_⟩
    change (decodeInt64 (.int i.toInt)).map ParameterValue.integer = .ok (.integer i)
    rw [decodeInt64, if_pos (by omega), Int64.ofInt_toInt]
    rfl

@[simp] theorem faithful_order (o : Order) : Faithful o := by
  refine faithful_record [cell ["id"] "id" o.id, cell ["name"] "name" o.name,
    cell ["class"] "class" o.colour] rfl (fun _ => rfl) ?_ ?_ ?_
  · simp [cell, field]
  · simp [cell_fits]
  · simp [cell, required]
    all_goals rfl

theorem faithful_zone {z : Zone} (h : Faithful z.mode) : Faithful z := by
  refine faithful_record [cell ["id"] "id" z.id,
    cell ["description", "desc"] "description" z.description, cell ["mode"] "mode" z.mode,
    cell ["current"] "current" z.current] rfl (fun _ => rfl) ?_ ?_ ?_
  · simp [cell, field]
  · simp [cell_fits, h]
  · simp [cell, required, h]
    all_goals rfl

@[simp] theorem faithful_planning (p : Planning) : Faithful p := by
  refine faithful_record [cell ["id"] "id" p.id, cell ["name"] "name" p.name]
    rfl (fun _ => rfl) ?_ ?_ ?_
  · simp [cell, field]
  · simp [cell_fits]
  · simp [cell, required]
    all_goals rfl

@[simp] theorem faithful_planningName (n : PlanningName) : Faithful n := by
  refine faithful_record [cell ["name"] "name" n.name] rfl (fun _ => rfl) ?_ ?_ ?_
  · simp [cell, field]
  · simp [cell_fits]
  · simp [cell, required]

@[simp] theorem faithful_slot (x : Slot) : Faithful x := by
  refine faithful_record [cell ["id"] "id" x.id, cell ["dow"] "dow" x.day,
    cell ["hour"] "hour" x.hour, cell ["minute"] "minute" x.minute,
    cell ["order"] "order" x.order] rfl (fun _ => rfl) ?_ ?_ ?_
  · simp [cell, field]
  · simp [cell_fits]
  · simp [cell, required]
    all_goals rfl

@[simp] theorem faithful_newSlot (x : NewSlot) : Faithful x := by
  refine faithful_record [cell ["dow"] "dow" x.day, cell ["hour"] "hour" x.hour,
    cell ["minute"] "minute" x.minute, cell ["order"] "order" x.order] rfl (fun _ => rfl) ?_ ?_ ?_
  · simp [cell, field]
  · simp [cell_fits]
  · simp [cell, required]
    all_goals rfl

@[simp] theorem faithful_account (a : Account) : Faithful a := by
  refine faithful_record [cell ["id"] "id" a.id, cell ["type"] "type" a.kind]
    rfl (fun _ => rfl) ?_ ?_ ?_
  · simp [cell, field]
  · simp [cell_fits]
  · simp [cell, required]
    all_goals rfl

@[simp] theorem faithful_newAccount (a : NewAccount) : Faithful a := by
  refine faithful_record [cell ["id"] "id" a.id, cell ["password"] "password" a.password]
    rfl (fun _ => rfl) ?_ ?_ ?_
  · simp [cell, field]
  · simp [cell_fits]
  · simp [cell, required]
    all_goals rfl

@[simp] theorem faithful_passwordReset (r : PasswordReset) : Faithful r := by
  refine faithful_record [cell ["password"] "password" r.password] rfl (fun _ => rfl) ?_ ?_ ?_
  · simp [cell, field]
  · simp [cell_fits]
  · simp [cell, required]

@[simp] theorem faithful_hardwareType (h : HardwareType) : Faithful h := by
  refine faithful_record [cell ["id"] "id" h.id,
    cell ["description", "name"] "description" h.description] rfl (fun _ => rfl) ?_ ?_ ?_
  · simp [cell, field]
  · simp [cell_fits]
  · simp [cell, required]
    all_goals rfl

@[simp] theorem faithful_hardwareParameter (p : HardwareParameter) : Faithful p := by
  refine faithful_record [cell ["id"] "id" p.id, cell ["description"] "description" p.description,
    cell ["type"] "type" p.kind, cell ["value"] "value" p.value] rfl (fun _ => rfl) ?_ ?_ ?_
  · simp [cell, field]
  · simp [cell_fits]
  · simp [cell, required]
    all_goals rfl

@[simp] theorem faithful_connectedUser (u : ConnectedUser) : Faithful u := by
  refine faithful_record [cell ["id"] "id" u.id, cell ["source_ip"] "source_ip" u.sourceAddress]
    rfl (fun _ => rfl) ?_ ?_ ?_
  · simp [cell, field]
  · simp [cell_fits]
  · simp [cell, required]
    all_goals rfl

@[simp] theorem faithful_wifiStats (w : WifiStats) : Faithful w := by
  refine faithful_record [cell ["current_uptime"] "current_uptime" w.currentUptime,
    cell ["cumulated_uptime"] "cumulated_uptime" w.cumulatedUptime,
    cell ["successes"] "successes" w.successes, cell ["attempts"] "attempts" w.attempts,
    cell ["disconnects"] "disconnects" w.disconnects] rfl (fun _ => rfl) ?_ ?_ ?_
  · simp [cell, field]
  · simp [cell_fits]
  · simp [cell, required]
    all_goals rfl

@[simp] theorem faithful_uptime (u : Uptime) : Faithful u := by
  refine faithful_record [cell ["system"] "system" u.system, cell ["wifi"] "wifi" u.wifi]
    rfl (fun _ => rfl) ?_ ?_ ?_
  · simp [cell, field]
  · simp [cell_fits]
  · simp [cell, required]
    all_goals rfl

@[simp] theorem faithful_runningFirmware (f : RunningFirmware) : Faithful f := by
  refine faithful_record [cell ["running_partition"] "running_partition" f.partition,
    cell ["running_partition_size"] "running_partition_size" f.partitionSize,
    cell ["running_app_name"] "running_app_name" f.name,
    cell ["running_app_version"] "running_app_version" f.version,
    cell ["running_app_compiled_date"] "running_app_compiled_date" f.compiledDate,
    cell ["running_app_compiled_time"] "running_app_compiled_time" f.compiledTime,
    cell ["running_app_idf_version"] "running_app_idf_version" f.frameworkVersion]
    rfl (fun _ => rfl) ?_ ?_ ?_
  · simp [cell, field]
  · simp [cell_fits]
  · simp [cell, required]
    all_goals rfl

theorem faithful_overrideBody {b : OverrideBody} (h : Faithful b.value) : Faithful b := by
  refine faithful_record [cell ["override"] "override" b.value] rfl (fun _ => rfl) ?_ ?_ ?_
  · simp [cell, field]
  · simp [cell_fits, h]
  · simp [cell, required, h]

theorem faithful_listing {name : String} {α : Type} [Wire α] {l : Listing name α}
    (h : ∀ v ∈ l.items, Faithful v) : Faithful l := by
  have hitems := faithful_list h
  refine faithful_record [cell [name] name l.items] rfl (fun _ => rfl) ?_ ?_ ?_
  · simp [cell, field]
  · simp [cell_fits, hitems]
  · simp [cell, required, hitems]

theorem faithful_zonePatch {p : ZonePatch} (h : ∀ m, p.mode = some m → Faithful m) :
    Faithful p := by
  have hdescription : Faithful p.description := faithful_option nofun fun s _ => faithful_text s
  have hmode : Faithful p.mode := faithful_option nofun h
  refine faithful_record [optionalCell "description" p.description, optionalCell "mode" p.mode]
    ?_ (fun _ => rfl) ?_ ?_ ?_
  · cases p with
    | mk description mode => cases description <;> cases mode <;> rfl
  · simp [optionalCell, field]
  · simp [optionalCell_fits, hdescription, hmode]
  · simp [optional_of hdescription, optional_of hmode]
    all_goals rfl

@[simp] theorem faithful_slotPatch (p : SlotPatch) : Faithful p := by
  have hday : Faithful p.day := faithful_option nofun fun d _ => faithful_day d
  have hhour : Faithful p.hour := faithful_option nofun fun n _ => faithful_uint8 n
  have hminute : Faithful p.minute := faithful_option nofun fun n _ => faithful_uint8 n
  have horder : Faithful p.order := faithful_option nofun fun id _ => faithful_orderId id
  refine faithful_record [optionalCell "dow" p.day, optionalCell "hour" p.hour,
    optionalCell "minute" p.minute, optionalCell "order" p.order] ?_ (fun _ => rfl) ?_ ?_ ?_
  · cases p with
    | mk day hour minute order =>
      cases day <;> cases hour <;> cases minute <;> cases order <;> rfl
  · simp [optionalCell, field]
  · simp [optionalCell_fits, hday, hhour, hminute, horder]
  · simp [optional_of hday, optional_of hhour, optional_of hminute, optional_of horder]
    all_goals rfl

@[simp] theorem faithful_hardwareList (l : HardwareList) : Faithful l := by
  have hcurrent : Faithful l.current := faithful_option nofun fun id _ => faithful_hardwareId id
  have hsupported : Faithful l.supported := faithful_list fun h _ => faithful_hardwareType h
  have hread : decodeNullable (encode l.current) = .ok l.current := hcurrent.reads
  refine faithful_record [cell ["current"] "current" l.current,
    cell ["supported"] "supported" l.supported] rfl (fun _ => rfl) ?_ ?_ ?_
  · simp [cell, field]
  · simp [cell_fits, hcurrent, hsupported]
  · simp [cell, required, optional, hread, hsupported]
    all_goals rfl

@[simp] theorem faithful_status (s : Status) : Faithful s := by
  have huser : Faithful s.user := faithful_option nofun fun u _ => faithful_connectedUser u
  have hfirmware : Faithful s.firmware :=
    faithful_option nofun fun f _ => faithful_runningFirmware f
  refine faithful_record [optionalCell "user" s.user, cell ["uptime"] "uptime" s.uptime,
    optionalCell "firmware" s.firmware] ?_ (fun _ => rfl) ?_ ?_ ?_
  · cases s with
    | mk user uptime firmware => cases user <;> cases firmware <;> rfl
  · simp [cell, optionalCell, field]
  · simp [cell_fits, optionalCell_fits, huser, hfirmware]
  · simp [cell, required, optional_of huser, optional_of hfirmware]
    all_goals rfl

end HeatingControl.Wire
