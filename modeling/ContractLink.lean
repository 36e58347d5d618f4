import ContractLink.Main
import ContractLink.Session
import ContractLink.Value.Inspect
import ContractLink.Proofs.Registry.Normal
import ContractLink.Proofs.Serve.Lossless
import ContractLink.Proofs.Api.Serialized
import ContractLink.Proofs.Registry.Extension
import ContractLink.Proofs.Message.Fields
import ContractLink.Proofs.Link.Lockstep
import ContractLink.Proofs.Session.Limited
import ContractLink.Proofs.Session.InStep
import ContractLink.Proofs.Serve.Input
import ContractLink.Proofs.Link.Word
import ContractLink.Proofs.CommandLine.Language
import ContractLink.Proofs.Serve.Description
import ContractLink.Proofs.Registry.Depth
import ContractLink.Proofs.Wire.Stable
import ContractLink.Proofs.TwosComplement
import ContractLink.Proofs.Registry.Refusal
import ContractLink.Proofs.Registry.Injective
import ContractLink.Proofs.Registry.Dictionary
import ContractLink.Proofs.Address.Forms
import ContractLink.Proofs.Api.Signature
import ContractLink.Proofs.Address.Characters
import ContractLink.Proofs.Api.History
import ContractLink.Proofs.Wire.Buffer
import ContractLink.Proofs.Api.Parameters
