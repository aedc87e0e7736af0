import SignedFirmware.Blob.Draft
import SignedFirmware.Blob.Error
import SignedFirmware.Blob.Read
import SignedFirmware.Blob.Signature
import SignedFirmware.Blob.Signers
import SignedFirmware.Bytes
import SignedFirmware.Calendar
import SignedFirmware.CertList
import SignedFirmware.CertList.Workbench
import SignedFirmware.Cms.Attribute
import SignedFirmware.Cms.SignedData
import SignedFirmware.Cms.SignerInfo
import SignedFirmware.Command.Failure
import SignedFirmware.Command.Help
import SignedFirmware.Command.Invocation
import SignedFirmware.Command.Narration
import SignedFirmware.Command.Options
import SignedFirmware.Command.Program
import SignedFirmware.Command.Run
import SignedFirmware.Config
import SignedFirmware.Credential.Certificate
import SignedFirmware.Credential.Error
import SignedFirmware.Credential.File
import SignedFirmware.Credential.Issue
import SignedFirmware.Credential.Key
import SignedFirmware.Der.Element
import SignedFirmware.Der.Fields
import SignedFirmware.Der.SetOf
import SignedFirmware.Der.Value
import SignedFirmware.Digest
import SignedFirmware.Digest.Block
import SignedFirmware.Digest.Md5
import SignedFirmware.Digest.Sha1
import SignedFirmware.Digest.Sha2
import SignedFirmware.Envelope
import SignedFirmware.Host
import SignedFirmware.Key.Aes
import SignedFirmware.Key.Encryption
import SignedFirmware.Key.Prf
import SignedFirmware.Key.PrivateKeyInfo
import SignedFirmware.Key.Scrypt
import SignedFirmware.Log
import SignedFirmware.Main
import SignedFirmware.Oid
import SignedFirmware.Pem.Base64
import SignedFirmware.Pem.Text
import SignedFirmware.Proofs.Blob.Chain
import SignedFirmware.Proofs.Blob.Draft
import SignedFirmware.Proofs.Blob.Embedded
import SignedFirmware.Proofs.Blob.Read
import SignedFirmware.Proofs.Blob.Rearranged
import SignedFirmware.Proofs.Blob.Records
import SignedFirmware.Proofs.Blob.Signature
import SignedFirmware.Proofs.Blob.Signers
import SignedFirmware.Proofs.Blob.Size
import SignedFirmware.Proofs.Bytes
import SignedFirmware.Proofs.Bytes.Lines
import SignedFirmware.Proofs.Bytes.Text
import SignedFirmware.Proofs.Calendar
import SignedFirmware.Proofs.CertList
import SignedFirmware.Proofs.CertList.Fault
import SignedFirmware.Proofs.CertList.Truncation
import SignedFirmware.Proofs.CertList.Workbench
import SignedFirmware.Proofs.Cms.Attribute
import SignedFirmware.Proofs.Cms.SignedData
import SignedFirmware.Proofs.Cms.SignerInfo
import SignedFirmware.Proofs.Command.Lifetime
import SignedFirmware.Proofs.Command.Run
import SignedFirmware.Proofs.Command.Verify
import SignedFirmware.Proofs.Credential.File
import SignedFirmware.Proofs.Credential.Indent
import SignedFirmware.Proofs.Credential.Issue
import SignedFirmware.Proofs.Credential.Key
import SignedFirmware.Proofs.Credential.KeyFile
import SignedFirmware.Proofs.Credential.Layout
import SignedFirmware.Proofs.Credential.Stored
import SignedFirmware.Proofs.Der.Element
import SignedFirmware.Proofs.Der.Fields
import SignedFirmware.Proofs.Der.Members
import SignedFirmware.Proofs.Der.Order
import SignedFirmware.Proofs.Der.SetOf
import SignedFirmware.Proofs.Der.Sorting
import SignedFirmware.Proofs.Der.Value
import SignedFirmware.Proofs.Digest
import SignedFirmware.Proofs.Envelope
import SignedFirmware.Proofs.Envelope.Retraction
import SignedFirmware.Proofs.Except
import SignedFirmware.Proofs.List
import SignedFirmware.Proofs.Pem.Base64
import SignedFirmware.Proofs.Pem.Parts
import SignedFirmware.Proofs.Pem.Text
import SignedFirmware.Proofs.Rsa.Signature
import SignedFirmware.Proofs.Session
import SignedFirmware.Proofs.Trust.Anchored
import SignedFirmware.Proofs.Trust.Chain
import SignedFirmware.Proofs.Trust.Check
import SignedFirmware.Proofs.Trust.Climb
import SignedFirmware.Proofs.Trust.Completeness
import SignedFirmware.Proofs.Trust.Content
import SignedFirmware.Proofs.Trust.Draft
import SignedFirmware.Proofs.Trust.Forms
import SignedFirmware.Proofs.Trust.Hierarchy
import SignedFirmware.Proofs.Trust.Junk
import SignedFirmware.Proofs.Trust.Order
import SignedFirmware.Proofs.Trust.Relaxation
import SignedFirmware.Proofs.Trust.Tamper
import SignedFirmware.Proofs.Trust.Truncation
import SignedFirmware.Proofs.Trust.Turns
import SignedFirmware.Proofs.Trust.Unauthenticated
import SignedFirmware.Proofs.Trust.Verify
import SignedFirmware.Proofs.Trust.Walk
import SignedFirmware.Proofs.X509.AlgorithmId
import SignedFirmware.Proofs.X509.Canonical
import SignedFirmware.Proofs.X509.Certificate
import SignedFirmware.Proofs.X509.Name
import SignedFirmware.Proofs.X509.Source
import SignedFirmware.Proofs.X509.Time
import SignedFirmware.Rsa.Generate
import SignedFirmware.Rsa.Key
import SignedFirmware.Rsa.Modular
import SignedFirmware.Rsa.Signature
import SignedFirmware.Session
import SignedFirmware.Text.Hidden
import SignedFirmware.Text.Parser
import SignedFirmware.Text.Quoted
import SignedFirmware.Toml.Document
import SignedFirmware.Toml.Scalar
import SignedFirmware.Toml.Value
import SignedFirmware.Trust.Chain
import SignedFirmware.Trust.Issuer
import SignedFirmware.Trust.Policy
import SignedFirmware.Trust.Store
import SignedFirmware.Trust.Verify
import SignedFirmware.X509.AlgorithmId
import SignedFirmware.X509.Certificate
import SignedFirmware.X509.Extension
import SignedFirmware.X509.Name
import SignedFirmware.X509.Name.Text
import SignedFirmware.X509.Revocation
import SignedFirmware.X509.Time
