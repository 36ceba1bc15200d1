/-
This file lists the interrupts of the 65C816. Each has a pointer to its handler near
the top of bank zero, and the processor is either in native or in emulation mode when
it takes it.
-/

namespace Cartridge

/-- An interrupt with a pointer of its own. -/
inductive Interrupt where
  | copNative
  | brkNative
  | abortNative
  | nmiNative
  | irqNative
  | copEmulation
  | abortEmulation
  | nmiEmulation
  | reset
  | irqEmulation
deriving DecidableEq

namespace Interrupt

/-- All interrupts, in the order of their pointers. -/
def all : List Interrupt :=
  [.copNative, .brkNative, .abortNative, .nmiNative, .irqNative, .copEmulation,
    .abortEmulation, .nmiEmulation, .reset, .irqEmulation]

/-- The place in bank zero of the pointer to the handler. -/
def pointer : Interrupt → UInt16
  | .copNative => 0xFFE4
  | .brkNative => 0xFFE6
  | .abortNative => 0xFFE8
  | .nmiNative => 0xFFEA
  | .irqNative => 0xFFEE
  | .copEmulation => 0xFFF4
  | .abortEmulation => 0xFFF8
  | .nmiEmulation => 0xFFFA
  | .reset => 0xFFFC
  | .irqEmulation => 0xFFFE

/-- Whether the processor is in emulation mode when it takes the interrupt. -/
def isEmulation : Interrupt → Bool
  | .copEmulation | .abortEmulation | .nmiEmulation | .reset | .irqEmulation => true
  | _ => false

/-- The name shown to readers. -/
def title : Interrupt → String
  | .copNative => "cop_native"
  | .brkNative => "brk_native"
  | .abortNative => "abort_native"
  | .nmiNative => "nmi_native"
  | .irqNative => "irq_native"
  | .copEmulation => "cop_emulation"
  | .abortEmulation => "abort_emulation"
  | .nmiEmulation => "nmi_emulation"
  | .reset => "reset"
  | .irqEmulation => "irq_emulation"

/-- The name used in documents. -/
def keyword : Interrupt → String
  | .copNative => "CopNative"
  | .brkNative => "BrkNative"
  | .abortNative => "AbortNative"
  | .nmiNative => "NmiNative"
  | .irqNative => "IrqNative"
  | .copEmulation => "CopEmulation"
  | .abortEmulation => "AbortEmulation"
  | .nmiEmulation => "NmiEmulation"
  | .reset => "Reset"
  | .irqEmulation => "IrqEmulation"

/-- Every interrupt is listed. -/
theorem mem_all (interrupt : Interrupt) : interrupt ∈ all := by
  cases interrupt <;> decide

end Interrupt

end Cartridge
