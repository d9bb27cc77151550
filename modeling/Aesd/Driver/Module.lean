import Aesd.Driver.Device
import Aesd.Lib.Run

set_option relaxedAutoImplicit false
set_option autoImplicit false

/-!
# Loading and unloading the module

`aesd_init_module` acquires a device-number region, the persistent entry structure and the
character device, in this order, and `aesd_cleanup_module` releases them together with the
commands held. The cleanup function is also the error path of the initialisation.

A release of something that was not acquired is counted, so that it is visible in every later
state.

## Main definitions

* `Aesd.AesdModule` — the driver with the resources of the module.
* `Aesd.aesdInitModule`, `Aesd.aesdCleanupModule`.
* `Aesd.Reachable` — the device states reachable by calls after a successful initialisation.

## Main results

* `Aesd.aesdInitModule_cases` — the outcomes of the initialisation.
-/

namespace Aesd

/-- The states of the character device structure. -/
inductive CdevState where
  | zeroed
  | initialised
  | added
  | deleted
deriving DecidableEq

/-- The module: the driver, the state of `aesd_device.cdev`, the device-number regions held, and
the number of releases of a region or a character device that was not acquired. -/
structure AesdModule where
  driver : Driver
  cdev : CdevState
  regions : ℕ
  badReleases : ℕ

/-- The outcomes of the kernel calls inside `aesd_init_module`: the results of
`alloc_chrdev_region` and `cdev_add`, and the address of the entry structure. -/
structure InitEnv where
  region : ℤ
  entryPtr : Ptr
  cdevAdd : ℤ

/-- The module before it is loaded: all zero, nothing acquired. -/
def AesdModule.unloaded : AesdModule where
  driver :=
    { circBuff := aesdCircularBufferInit, gEnt := none, gEntVal := .zero, lock := false
      heap := .empty }
  cdev := .zeroed
  regions := 0
  badReleases := 0

/-- `unregister_chrdev_region`. -/
def unregisterChrdevRegion (m : AesdModule) : AesdModule :=
  if m.regions = 0 then { m with badReleases := m.badReleases + 1 }
  else { m with regions := m.regions - 1 }

/-- `cdev_del(&aesd_device.cdev)`. -/
def cdevDel (m : AesdModule) : AesdModule :=
  if m.cdev = .added then { m with cdev := .deleted }
  else { m with badReleases := m.badReleases + 1 }

/-- `aesd_cleanup_module`: release the device, the blocks of the non-`NULL` slots in array order,
the persistent entry structure and the region. -/
def aesdCleanupModule (m : AesdModule) : AesdModule :=
  let m := cdevDel m
  let heap := m.driver.circBuff.entry.toList.foldl (fun h e => h.free e.buffptr) m.driver.heap
  unregisterChrdevRegion { m with driver := { m.driver with heap := heap.free m.driver.gEnt } }

/-- `aesd_setup_cdev`: initialise the character device and add it. -/
def aesdSetupCdev (m : AesdModule) (cdevAdd : ℤ) : ℤ × AesdModule :=
  (cdevAdd, { m with cdev := if cdevAdd = 0 then .added else .initialised })

/-- `aesd_init_module` once the region is registered and the entry structure allocated. -/
def initAllocated (m : AesdModule) (cdevAdd : ℤ) : ℤ × AesdModule :=
  let setup := aesdSetupCdev m cdevAdd
  if setup.1 = 0 then setup else (setup.1, unregisterChrdevRegion setup.2)

/-- `aesd_init_module`: the result and the module afterwards. -/
def aesdInitModule (env : InitEnv) : ℤ × AesdModule :=
  if env.region < 0 then (env.region, .unloaded)
  else
    match kmalloc AesdModule.unloaded.driver.heap sizeofEntry env.entryPtr .entry with
    | (none, _) => (-ENOMEM, aesdCleanupModule { AesdModule.unloaded with regions := 1 })
    | (some ent, heap) =>
      initAllocated
        { AesdModule.unloaded with
          driver := { AesdModule.unloaded.driver with heap, gEnt := some ent, gEntVal := .zero }
          regions := 1 } env.cdevAdd

/-- The device after a successful `aesd_init_module`. -/
def Initialised (s : Driver) : Prop :=
  ∃ env, (aesdInitModule env).1 = 0 ∧ (aesdInitModule env).2.driver = s

/-- The device states reachable after a successful initialisation by calls of the file
operations with any arguments and outcomes. -/
def Reachable (fsl : FixedSizeLlseek) (s : Driver) : Prop :=
  ∃ s₀ cs, Initialised s₀ ∧ Transition.Run (CallStep fsl) s₀ cs s

/-- The device with a zeroed buffer, a free lock and one entry structure, at `g`. -/
def initialDriver (g : ℕ) : Driver where
  circBuff := aesdCircularBufferInit
  gEnt := some g
  gEntVal := .zero
  lock := false
  heap := Heap.empty.put g .entry

/-- **The outcomes of `aesd_init_module`**: it fails at the region, at the entry structure or at
the character device, or it succeeds. -/
lemma aesdInitModule_cases (env : InitEnv) :
    (env.region < 0 ∧ aesdInitModule env = (env.region, .unloaded)) ∨
      (0 ≤ env.region ∧ aesdInitModule env =
        (-ENOMEM, aesdCleanupModule { AesdModule.unloaded with regions := 1 })) ∨
      (0 ≤ env.region ∧ env.cdevAdd ≠ 0 ∧ ∃ g, aesdInitModule env =
        (env.cdevAdd, ⟨initialDriver g, .initialised, 0, 0⟩)) ∨
      (0 ≤ env.region ∧ ∃ g, aesdInitModule env = (0, ⟨initialDriver g, .added, 1, 0⟩)) := by
  unfold aesdInitModule
  split_ifs with hregion
  · exact .inl ⟨hregion, rfl⟩
  · rw [not_lt] at hregion
    refine .inr ?_
    split
    · exact .inl ⟨hregion, rfl⟩
    · rename_i g heap hk
      obtain ⟨-, -, rfl⟩ := Heap.malloc_some
        (show Heap.empty.malloc env.entryPtr .entry = (some g, heap) from hk)
      simp only [initAllocated, aesdSetupCdev]
      split_ifs with hadd
      · exact .inr (.inr ⟨hregion, g, by rw [hadd]; rfl⟩)
      · exact .inr (.inl ⟨hregion, hadd, g, rfl⟩)

/-- The states after a successful initialisation. -/
lemma initialised_iff {s : Driver} : Initialised s ↔ ∃ g, s = initialDriver g := by
  constructor
  · rintro ⟨env, h0, rfl⟩
    rcases aesdInitModule_cases env with
      ⟨hneg, h⟩ | ⟨-, h⟩ | ⟨-, hadd, g, h⟩ | ⟨-, g, h⟩ <;> rw [h] at h0 ⊢
    · exact absurd h0 hneg.ne
    · exact absurd h0 (by decide)
    · exact absurd h0 hadd
    · exact ⟨g, rfl⟩
  · rintro ⟨g, rfl⟩
    exact ⟨⟨0, some g, 0⟩, rfl, rfl⟩

/-- The device is reachable right after its initialisation. -/
lemma reachable_initialDriver (fsl : FixedSizeLlseek) (g : ℕ) : Reachable fsl (initialDriver g) :=
  ⟨initialDriver g, [], initialised_iff.mpr ⟨g, rfl⟩, .nil⟩

end Aesd
