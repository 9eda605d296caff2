import Mathlib.Data.FinEnum
import Mathlib.Data.LawfulXor.Basic
import Mathlib.Data.Set.Finite.List
import RtmpDriver.StepMachine

/-! The AES block cipher of `crypt_aes.c`, with its tables, and that RT_AES_Decrypt undoes RT_AES_Encrypt under every
key. `Block` is the state array, column by column. -/
namespace RtmpDriver.Aes
open StepMachine List

def aesRcon : List UInt32 := [
  0x00000000,0x01000000,0x02000000,0x04000000,0x08000000,0x10000000,
  0x20000000,0x40000000,0x80000000,0x1b000000,0x36000000]

def aesSboxEnc : List UInt8 := [
  0x63,0x7c,0x77,0x7b,0xf2,0x6b,0x6f,0xc5,0x30,0x01,0x67,0x2b,0xfe,0xd7,0xab,0x76,0xca,0x82,0xc9,0x7d,
  0xfa,0x59,0x47,0xf0,0xad,0xd4,0xa2,0xaf,0x9c,0xa4,0x72,0xc0,0xb7,0xfd,0x93,0x26,0x36,0x3f,0xf7,0xcc,
  0x34,0xa5,0xe5,0xf1,0x71,0xd8,0x31,0x15,0x04,0xc7,0x23,0xc3,0x18,0x96,0x05,0x9a,0x07,0x12,0x80,0xe2,
  0xeb,0x27,0xb2,0x75,0x09,0x83,0x2c,0x1a,0x1b,0x6e,0x5a,0xa0,0x52,0x3b,0xd6,0xb3,0x29,0xe3,0x2f,0x84,
  0x53,0xd1,0x00,0xed,0x20,0xfc,0xb1,0x5b,0x6a,0xcb,0xbe,0x39,0x4a,0x4c,0x58,0xcf,0xd0,0xef,0xaa,0xfb,
  0x43,0x4d,0x33,0x85,0x45,0xf9,0x02,0x7f,0x50,0x3c,0x9f,0xa8,0x51,0xa3,0x40,0x8f,0x92,0x9d,0x38,0xf5,
  0xbc,0xb6,0xda,0x21,0x10,0xff,0xf3,0xd2,0xcd,0x0c,0x13,0xec,0x5f,0x97,0x44,0x17,0xc4,0xa7,0x7e,0x3d,
  0x64,0x5d,0x19,0x73,0x60,0x81,0x4f,0xdc,0x22,0x2a,0x90,0x88,0x46,0xee,0xb8,0x14,0xde,0x5e,0x0b,0xdb,
  0xe0,0x32,0x3a,0x0a,0x49,0x06,0x24,0x5c,0xc2,0xd3,0xac,0x62,0x91,0x95,0xe4,0x79,0xe7,0xc8,0x37,0x6d,
  0x8d,0xd5,0x4e,0xa9,0x6c,0x56,0xf4,0xea,0x65,0x7a,0xae,0x08,0xba,0x78,0x25,0x2e,0x1c,0xa6,0xb4,0xc6,
  0xe8,0xdd,0x74,0x1f,0x4b,0xbd,0x8b,0x8a,0x70,0x3e,0xb5,0x66,0x48,0x03,0xf6,0x0e,0x61,0x35,0x57,0xb9,
  0x86,0xc1,0x1d,0x9e,0xe1,0xf8,0x98,0x11,0x69,0xd9,0x8e,0x94,0x9b,0x1e,0x87,0xe9,0xce,0x55,0x28,0xdf,
  0x8c,0xa1,0x89,0x0d,0xbf,0xe6,0x42,0x68,0x41,0x99,0x2d,0x0f,0xb0,0x54,0xbb,0x16]

def aesSboxDec : List UInt8 := [
  0x52,0x09,0x6a,0xd5,0x30,0x36,0xa5,0x38,0xbf,0x40,0xa3,0x9e,0x81,0xf3,0xd7,0xfb,0x7c,0xe3,0x39,0x82,
  0x9b,0x2f,0xff,0x87,0x34,0x8e,0x43,0x44,0xc4,0xde,0xe9,0xcb,0x54,0x7b,0x94,0x32,0xa6,0xc2,0x23,0x3d,
  0xee,0x4c,0x95,0x0b,0x42,0xfa,0xc3,0x4e,0x08,0x2e,0xa1,0x66,0x28,0xd9,0x24,0xb2,0x76,0x5b,0xa2,0x49,
  0x6d,0x8b,0xd1,0x25,0x72,0xf8,0xf6,0x64,0x86,0x68,0x98,0x16,0xd4,0xa4,0x5c,0xcc,0x5d,0x65,0xb6,0x92,
  0x6c,0x70,0x48,0x50,0xfd,0xed,0xb9,0xda,0x5e,0x15,0x46,0x57,0xa7,0x8d,0x9d,0x84,0x90,0xd8,0xab,0x00,
  0x8c,0xbc,0xd3,0x0a,0xf7,0xe4,0x58,0x05,0xb8,0xb3,0x45,0x06,0xd0,0x2c,0x1e,0x8f,0xca,0x3f,0x0f,0x02,
  0xc1,0xaf,0xbd,0x03,0x01,0x13,0x8a,0x6b,0x3a,0x91,0x11,0x41,0x4f,0x67,0xdc,0xea,0x97,0xf2,0xcf,0xce,
  0xf0,0xb4,0xe6,0x73,0x96,0xac,0x74,0x22,0xe7,0xad,0x35,0x85,0xe2,0xf9,0x37,0xe8,0x1c,0x75,0xdf,0x6e,
  0x47,0xf1,0x1a,0x71,0x1d,0x29,0xc5,0x89,0x6f,0xb7,0x62,0x0e,0xaa,0x18,0xbe,0x1b,0xfc,0x56,0x3e,0x4b,
  0xc6,0xd2,0x79,0x20,0x9a,0xdb,0xc0,0xfe,0x78,0xcd,0x5a,0xf4,0x1f,0xdd,0xa8,0x33,0x88,0x07,0xc7,0x31,
  0xb1,0x12,0x10,0x59,0x27,0x80,0xec,0x5f,0x60,0x51,0x7f,0xa9,0x19,0xb5,0x4a,0x0d,0x2d,0xe5,0x7a,0x9f,
  0x93,0xc9,0x9c,0xef,0xa0,0xe0,0x3b,0x4d,0xae,0x2a,0xf5,0xb0,0xc8,0xeb,0xbb,0x3c,0x83,0x53,0x99,0x61,
  0x17,0x2b,0x04,0x7e,0xba,0x77,0xd6,0x26,0xe1,0x69,0x14,0x63,0x55,0x21,0x0c,0x7d]

def aesMul2 : List UInt8 := [
  0x00,0x02,0x04,0x06,0x08,0x0a,0x0c,0x0e,0x10,0x12,0x14,0x16,0x18,0x1a,0x1c,0x1e,0x20,0x22,0x24,0x26,
  0x28,0x2a,0x2c,0x2e,0x30,0x32,0x34,0x36,0x38,0x3a,0x3c,0x3e,0x40,0x42,0x44,0x46,0x48,0x4a,0x4c,0x4e,
  0x50,0x52,0x54,0x56,0x58,0x5a,0x5c,0x5e,0x60,0x62,0x64,0x66,0x68,0x6a,0x6c,0x6e,0x70,0x72,0x74,0x76,
  0x78,0x7a,0x7c,0x7e,0x80,0x82,0x84,0x86,0x88,0x8a,0x8c,0x8e,0x90,0x92,0x94,0x96,0x98,0x9a,0x9c,0x9e,
  0xa0,0xa2,0xa4,0xa6,0xa8,0xaa,0xac,0xae,0xb0,0xb2,0xb4,0xb6,0xb8,0xba,0xbc,0xbe,0xc0,0xc2,0xc4,0xc6,
  0xc8,0xca,0xcc,0xce,0xd0,0xd2,0xd4,0xd6,0xd8,0xda,0xdc,0xde,0xe0,0xe2,0xe4,0xe6,0xe8,0xea,0xec,0xee,
  0xf0,0xf2,0xf4,0xf6,0xf8,0xfa,0xfc,0xfe,0x1b,0x19,0x1f,0x1d,0x13,0x11,0x17,0x15,0x0b,0x09,0x0f,0x0d,
  0x03,0x01,0x07,0x05,0x3b,0x39,0x3f,0x3d,0x33,0x31,0x37,0x35,0x2b,0x29,0x2f,0x2d,0x23,0x21,0x27,0x25,
  0x5b,0x59,0x5f,0x5d,0x53,0x51,0x57,0x55,0x4b,0x49,0x4f,0x4d,0x43,0x41,0x47,0x45,0x7b,0x79,0x7f,0x7d,
  0x73,0x71,0x77,0x75,0x6b,0x69,0x6f,0x6d,0x63,0x61,0x67,0x65,0x9b,0x99,0x9f,0x9d,0x93,0x91,0x97,0x95,
  0x8b,0x89,0x8f,0x8d,0x83,0x81,0x87,0x85,0xbb,0xb9,0xbf,0xbd,0xb3,0xb1,0xb7,0xb5,0xab,0xa9,0xaf,0xad,
  0xa3,0xa1,0xa7,0xa5,0xdb,0xd9,0xdf,0xdd,0xd3,0xd1,0xd7,0xd5,0xcb,0xc9,0xcf,0xcd,0xc3,0xc1,0xc7,0xc5,
  0xfb,0xf9,0xff,0xfd,0xf3,0xf1,0xf7,0xf5,0xeb,0xe9,0xef,0xed,0xe3,0xe1,0xe7,0xe5]

def aesMul3 : List UInt8 := [
  0x00,0x03,0x06,0x05,0x0c,0x0f,0x0a,0x09,0x18,0x1b,0x1e,0x1d,0x14,0x17,0x12,0x11,0x30,0x33,0x36,0x35,
  0x3c,0x3f,0x3a,0x39,0x28,0x2b,0x2e,0x2d,0x24,0x27,0x22,0x21,0x60,0x63,0x66,0x65,0x6c,0x6f,0x6a,0x69,
  0x78,0x7b,0x7e,0x7d,0x74,0x77,0x72,0x71,0x50,0x53,0x56,0x55,0x5c,0x5f,0x5a,0x59,0x48,0x4b,0x4e,0x4d,
  0x44,0x47,0x42,0x41,0xc0,0xc3,0xc6,0xc5,0xcc,0xcf,0xca,0xc9,0xd8,0xdb,0xde,0xdd,0xd4,0xd7,0xd2,0xd1,
  0xf0,0xf3,0xf6,0xf5,0xfc,0xff,0xfa,0xf9,0xe8,0xeb,0xee,0xed,0xe4,0xe7,0xe2,0xe1,0xa0,0xa3,0xa6,0xa5,
  0xac,0xaf,0xaa,0xa9,0xb8,0xbb,0xbe,0xbd,0xb4,0xb7,0xb2,0xb1,0x90,0x93,0x96,0x95,0x9c,0x9f,0x9a,0x99,
  0x88,0x8b,0x8e,0x8d,0x84,0x87,0x82,0x81,0x9b,0x98,0x9d,0x9e,0x97,0x94,0x91,0x92,0x83,0x80,0x85,0x86,
  0x8f,0x8c,0x89,0x8a,0xab,0xa8,0xad,0xae,0xa7,0xa4,0xa1,0xa2,0xb3,0xb0,0xb5,0xb6,0xbf,0xbc,0xb9,0xba,
  0xfb,0xf8,0xfd,0xfe,0xf7,0xf4,0xf1,0xf2,0xe3,0xe0,0xe5,0xe6,0xef,0xec,0xe9,0xea,0xcb,0xc8,0xcd,0xce,
  0xc7,0xc4,0xc1,0xc2,0xd3,0xd0,0xd5,0xd6,0xdf,0xdc,0xd9,0xda,0x5b,0x58,0x5d,0x5e,0x57,0x54,0x51,0x52,
  0x43,0x40,0x45,0x46,0x4f,0x4c,0x49,0x4a,0x6b,0x68,0x6d,0x6e,0x67,0x64,0x61,0x62,0x73,0x70,0x75,0x76,
  0x7f,0x7c,0x79,0x7a,0x3b,0x38,0x3d,0x3e,0x37,0x34,0x31,0x32,0x23,0x20,0x25,0x26,0x2f,0x2c,0x29,0x2a,
  0x0b,0x08,0x0d,0x0e,0x07,0x04,0x01,0x02,0x13,0x10,0x15,0x16,0x1f,0x1c,0x19,0x1a]

def aesMul9 : List UInt8 := [
  0x00,0x09,0x12,0x1b,0x24,0x2d,0x36,0x3f,0x48,0x41,0x5a,0x53,0x6c,0x65,0x7e,0x77,0x90,0x99,0x82,0x8b,
  0xb4,0xbd,0xa6,0xaf,0xd8,0xd1,0xca,0xc3,0xfc,0xf5,0xee,0xe7,0x3b,0x32,0x29,0x20,0x1f,0x16,0x0d,0x04,
  0x73,0x7a,0x61,0x68,0x57,0x5e,0x45,0x4c,0xab,0xa2,0xb9,0xb0,0x8f,0x86,0x9d,0x94,0xe3,0xea,0xf1,0xf8,
  0xc7,0xce,0xd5,0xdc,0x76,0x7f,0x64,0x6d,0x52,0x5b,0x40,0x49,0x3e,0x37,0x2c,0x25,0x1a,0x13,0x08,0x01,
  0xe6,0xef,0xf4,0xfd,0xc2,0xcb,0xd0,0xd9,0xae,0xa7,0xbc,0xb5,0x8a,0x83,0x98,0x91,0x4d,0x44,0x5f,0x56,
  0x69,0x60,0x7b,0x72,0x05,0x0c,0x17,0x1e,0x21,0x28,0x33,0x3a,0xdd,0xd4,0xcf,0xc6,0xf9,0xf0,0xeb,0xe2,
  0x95,0x9c,0x87,0x8e,0xb1,0xb8,0xa3,0xaa,0xec,0xe5,0xfe,0xf7,0xc8,0xc1,0xda,0xd3,0xa4,0xad,0xb6,0xbf,
  0x80,0x89,0x92,0x9b,0x7c,0x75,0x6e,0x67,0x58,0x51,0x4a,0x43,0x34,0x3d,0x26,0x2f,0x10,0x19,0x02,0x0b,
  0xd7,0xde,0xc5,0xcc,0xf3,0xfa,0xe1,0xe8,0x9f,0x96,0x8d,0x84,0xbb,0xb2,0xa9,0xa0,0x47,0x4e,0x55,0x5c,
  0x63,0x6a,0x71,0x78,0x0f,0x06,0x1d,0x14,0x2b,0x22,0x39,0x30,0x9a,0x93,0x88,0x81,0xbe,0xb7,0xac,0xa5,
  0xd2,0xdb,0xc0,0xc9,0xf6,0xff,0xe4,0xed,0x0a,0x03,0x18,0x11,0x2e,0x27,0x3c,0x35,0x42,0x4b,0x50,0x59,
  0x66,0x6f,0x74,0x7d,0xa1,0xa8,0xb3,0xba,0x85,0x8c,0x97,0x9e,0xe9,0xe0,0xfb,0xf2,0xcd,0xc4,0xdf,0xd6,
  0x31,0x38,0x23,0x2a,0x15,0x1c,0x07,0x0e,0x79,0x70,0x6b,0x62,0x5d,0x54,0x4f,0x46]

def aesMulB : List UInt8 := [
  0x00,0x0b,0x16,0x1d,0x2c,0x27,0x3a,0x31,0x58,0x53,0x4e,0x45,0x74,0x7f,0x62,0x69,0xb0,0xbb,0xa6,0xad,
  0x9c,0x97,0x8a,0x81,0xe8,0xe3,0xfe,0xf5,0xc4,0xcf,0xd2,0xd9,0x7b,0x70,0x6d,0x66,0x57,0x5c,0x41,0x4a,
  0x23,0x28,0x35,0x3e,0x0f,0x04,0x19,0x12,0xcb,0xc0,0xdd,0xd6,0xe7,0xec,0xf1,0xfa,0x93,0x98,0x85,0x8e,
  0xbf,0xb4,0xa9,0xa2,0xf6,0xfd,0xe0,0xeb,0xda,0xd1,0xcc,0xc7,0xae,0xa5,0xb8,0xb3,0x82,0x89,0x94,0x9f,
  0x46,0x4d,0x50,0x5b,0x6a,0x61,0x7c,0x77,0x1e,0x15,0x08,0x03,0x32,0x39,0x24,0x2f,0x8d,0x86,0x9b,0x90,
  0xa1,0xaa,0xb7,0xbc,0xd5,0xde,0xc3,0xc8,0xf9,0xf2,0xef,0xe4,0x3d,0x36,0x2b,0x20,0x11,0x1a,0x07,0x0c,
  0x65,0x6e,0x73,0x78,0x49,0x42,0x5f,0x54,0xf7,0xfc,0xe1,0xea,0xdb,0xd0,0xcd,0xc6,0xaf,0xa4,0xb9,0xb2,
  0x83,0x88,0x95,0x9e,0x47,0x4c,0x51,0x5a,0x6b,0x60,0x7d,0x76,0x1f,0x14,0x09,0x02,0x33,0x38,0x25,0x2e,
  0x8c,0x87,0x9a,0x91,0xa0,0xab,0xb6,0xbd,0xd4,0xdf,0xc2,0xc9,0xf8,0xf3,0xee,0xe5,0x3c,0x37,0x2a,0x21,
  0x10,0x1b,0x06,0x0d,0x64,0x6f,0x72,0x79,0x48,0x43,0x5e,0x55,0x01,0x0a,0x17,0x1c,0x2d,0x26,0x3b,0x30,
  0x59,0x52,0x4f,0x44,0x75,0x7e,0x63,0x68,0xb1,0xba,0xa7,0xac,0x9d,0x96,0x8b,0x80,0xe9,0xe2,0xff,0xf4,
  0xc5,0xce,0xd3,0xd8,0x7a,0x71,0x6c,0x67,0x56,0x5d,0x40,0x4b,0x22,0x29,0x34,0x3f,0x0e,0x05,0x18,0x13,
  0xca,0xc1,0xdc,0xd7,0xe6,0xed,0xf0,0xfb,0x92,0x99,0x84,0x8f,0xbe,0xb5,0xa8,0xa3]

def aesMulD : List UInt8 := [
  0x00,0x0d,0x1a,0x17,0x34,0x39,0x2e,0x23,0x68,0x65,0x72,0x7f,0x5c,0x51,0x46,0x4b,0xd0,0xdd,0xca,0xc7,
  0xe4,0xe9,0xfe,0xf3,0xb8,0xb5,0xa2,0xaf,0x8c,0x81,0x96,0x9b,0xbb,0xb6,0xa1,0xac,0x8f,0x82,0x95,0x98,
  0xd3,0xde,0xc9,0xc4,0xe7,0xea,0xfd,0xf0,0x6b,0x66,0x71,0x7c,0x5f,0x52,0x45,0x48,0x03,0x0e,0x19,0x14,
  0x37,0x3a,0x2d,0x20,0x6d,0x60,0x77,0x7a,0x59,0x54,0x43,0x4e,0x05,0x08,0x1f,0x12,0x31,0x3c,0x2b,0x26,
  0xbd,0xb0,0xa7,0xaa,0x89,0x84,0x93,0x9e,0xd5,0xd8,0xcf,0xc2,0xe1,0xec,0xfb,0xf6,0xd6,0xdb,0xcc,0xc1,
  0xe2,0xef,0xf8,0xf5,0xbe,0xb3,0xa4,0xa9,0x8a,0x87,0x90,0x9d,0x06,0x0b,0x1c,0x11,0x32,0x3f,0x28,0x25,
  0x6e,0x63,0x74,0x79,0x5a,0x57,0x40,0x4d,0xda,0xd7,0xc0,0xcd,0xee,0xe3,0xf4,0xf9,0xb2,0xbf,0xa8,0xa5,
  0x86,0x8b,0x9c,0x91,0x0a,0x07,0x10,0x1d,0x3e,0x33,0x24,0x29,0x62,0x6f,0x78,0x75,0x56,0x5b,0x4c,0x41,
  0x61,0x6c,0x7b,0x76,0x55,0x58,0x4f,0x42,0x09,0x04,0x13,0x1e,0x3d,0x30,0x27,0x2a,0xb1,0xbc,0xab,0xa6,
  0x85,0x88,0x9f,0x92,0xd9,0xd4,0xc3,0xce,0xed,0xe0,0xf7,0xfa,0xb7,0xba,0xad,0xa0,0x83,0x8e,0x99,0x94,
  0xdf,0xd2,0xc5,0xc8,0xeb,0xe6,0xf1,0xfc,0x67,0x6a,0x7d,0x70,0x53,0x5e,0x49,0x44,0x0f,0x02,0x15,0x18,
  0x3b,0x36,0x21,0x2c,0x0c,0x01,0x16,0x1b,0x38,0x35,0x22,0x2f,0x64,0x69,0x7e,0x73,0x50,0x5d,0x4a,0x47,
  0xdc,0xd1,0xc6,0xcb,0xe8,0xe5,0xf2,0xff,0xb4,0xb9,0xae,0xa3,0x80,0x8d,0x9a,0x97]

def aesMulE : List UInt8 := [
  0x00,0x0e,0x1c,0x12,0x38,0x36,0x24,0x2a,0x70,0x7e,0x6c,0x62,0x48,0x46,0x54,0x5a,0xe0,0xee,0xfc,0xf2,
  0xd8,0xd6,0xc4,0xca,0x90,0x9e,0x8c,0x82,0xa8,0xa6,0xb4,0xba,0xdb,0xd5,0xc7,0xc9,0xe3,0xed,0xff,0xf1,
  0xab,0xa5,0xb7,0xb9,0x93,0x9d,0x8f,0x81,0x3b,0x35,0x27,0x29,0x03,0x0d,0x1f,0x11,0x4b,0x45,0x57,0x59,
  0x73,0x7d,0x6f,0x61,0xad,0xa3,0xb1,0xbf,0x95,0x9b,0x89,0x87,0xdd,0xd3,0xc1,0xcf,0xe5,0xeb,0xf9,0xf7,
  0x4d,0x43,0x51,0x5f,0x75,0x7b,0x69,0x67,0x3d,0x33,0x21,0x2f,0x05,0x0b,0x19,0x17,0x76,0x78,0x6a,0x64,
  0x4e,0x40,0x52,0x5c,0x06,0x08,0x1a,0x14,0x3e,0x30,0x22,0x2c,0x96,0x98,0x8a,0x84,0xae,0xa0,0xb2,0xbc,
  0xe6,0xe8,0xfa,0xf4,0xde,0xd0,0xc2,0xcc,0x41,0x4f,0x5d,0x53,0x79,0x77,0x65,0x6b,0x31,0x3f,0x2d,0x23,
  0x09,0x07,0x15,0x1b,0xa1,0xaf,0xbd,0xb3,0x99,0x97,0x85,0x8b,0xd1,0xdf,0xcd,0xc3,0xe9,0xe7,0xf5,0xfb,
  0x9a,0x94,0x86,0x88,0xa2,0xac,0xbe,0xb0,0xea,0xe4,0xf6,0xf8,0xd2,0xdc,0xce,0xc0,0x7a,0x74,0x66,0x68,
  0x42,0x4c,0x5e,0x50,0x0a,0x04,0x16,0x18,0x32,0x3c,0x2e,0x20,0xec,0xe2,0xf0,0xfe,0xd4,0xda,0xc8,0xc6,
  0x9c,0x92,0x80,0x8e,0xa4,0xaa,0xb8,0xb6,0x0c,0x02,0x10,0x1e,0x34,0x3a,0x28,0x26,0x7c,0x72,0x60,0x6e,
  0x44,0x4a,0x58,0x56,0x37,0x39,0x2b,0x25,0x0f,0x01,0x13,0x1d,0x47,0x49,0x5b,0x55,0x7f,0x71,0x63,0x6d,
  0xd7,0xd9,0xcb,0xc5,0xef,0xe1,0xf3,0xfd,0xa7,0xa9,0xbb,0xb5,0x9f,0x91,0x83,0x8d]

def lookup (table : List UInt8) (x : UInt8) : UInt8 := table.getD x.toNat 0

@[ext] structure Column where
  r0 : UInt8
  r1 : UInt8
  r2 : UInt8
  r3 : UInt8
  deriving DecidableEq, Repr

structure Block where
  c0 : Column
  c1 : Column
  c2 : Column
  c3 : Column
  deriving DecidableEq, Repr

def Column.map (f : UInt8 → UInt8) (c : Column) : Column := ⟨f c.r0,f c.r1,f c.r2,f c.r3⟩
def Column.add (a b : Column) : Column := ⟨a.r0 ^^^ b.r0,a.r1 ^^^ b.r1,a.r2 ^^^ b.r2,a.r3 ^^^ b.r3⟩
def Block.map (f : Column → Column) (s : Block) : Block := ⟨f s.c0,f s.c1,f s.c2,f s.c3⟩

def columnAt (bytes : List UInt8) (i : Nat) : Column :=
  ⟨bytes.getD (4 * i) 0,bytes.getD (4 * i + 1) 0,bytes.getD (4 * i + 2) 0,bytes.getD (4 * i + 3) 0⟩

/- `State[Row][Column] = Block[Row + 4*Column]` and back. -/
def ofBytes (bytes : List UInt8) : Block := ⟨columnAt bytes 0,columnAt bytes 1,columnAt bytes 2,columnAt bytes 3⟩
def Column.bytes (c : Column) : List UInt8 := [c.r0,c.r1,c.r2,c.r3]
def Block.bytes (s : Block) : List UInt8 := s.c0.bytes ++ s.c1.bytes ++ s.c2.bytes ++ s.c3.bytes

def subWord (c : Column) : Column := c.map (lookup aesSboxEnc)

def rotSubWord (rcon : UInt32) (c : Column) : Column :=
  (subWord ⟨c.r1,c.r2,c.r3,c.r0⟩).add
    ⟨(rcon >>> 24).toUInt8,(rcon >>> 16).toUInt8,(rcon >>> 8).toUInt8,rcon.toUInt8⟩

def expandWord (nk : Nat) (words : List Column) (i : Nat) : List Column :=
  let temp := words.getD (i - 1) ⟨0,0,0,0⟩
  let temp :=
    if i % nk = 0 then rotSubWord (aesRcon.getD (i / nk) 0) temp
    else if 6 < nk ∧ i % nk = 4 then subWord temp
    else temp
  words ++ [(words.getD (i - nk) ⟨0,0,0,0⟩).add temp]

def rtAesKeyExpansion (key : List UInt8) : List Column :=
  let nk := key.length / 4
  run (expandWord nk) ((range nk).map (columnAt key)) (range' nk (4 * (nk + 6 + 1) - nk))

def addRoundKey (words : List Column) (round : Nat) (s : Block) : Block :=
  let word (i : Nat) := words.getD (round * 4 + i) ⟨0,0,0,0⟩
  ⟨s.c0.add (word 0),s.c1.add (word 1),s.c2.add (word 2),s.c3.add (word 3)⟩

def subBytes (s : Block) : Block := s.map (Column.map (lookup aesSboxEnc))
def invSubBytes (s : Block) : Block := s.map (Column.map (lookup aesSboxDec))

def shiftRows : Block → Block
  | ⟨a,b,c,d⟩ => ⟨⟨a.r0,b.r1,c.r2,d.r3⟩,⟨b.r0,c.r1,d.r2,a.r3⟩,⟨c.r0,d.r1,a.r2,b.r3⟩,⟨d.r0,a.r1,b.r2,c.r3⟩⟩

def invShiftRows : Block → Block
  | ⟨a,b,c,d⟩ => ⟨⟨a.r0,d.r1,c.r2,b.r3⟩,⟨b.r0,a.r1,d.r2,c.r3⟩,⟨c.r0,b.r1,a.r2,d.r3⟩,⟨d.r0,c.r1,b.r2,a.r3⟩⟩

def mixColumn : Column → Column
  | ⟨a,b,c,d⟩ =>
    ⟨lookup aesMul2 a ^^^ lookup aesMul3 b ^^^ c ^^^ d,
     a ^^^ lookup aesMul2 b ^^^ lookup aesMul3 c ^^^ d,
     a ^^^ b ^^^ lookup aesMul2 c ^^^ lookup aesMul3 d,
     lookup aesMul3 a ^^^ b ^^^ c ^^^ lookup aesMul2 d⟩

def invMixColumn : Column → Column
  | ⟨a,b,c,d⟩ =>
    ⟨lookup aesMulE a ^^^ lookup aesMulB b ^^^ lookup aesMulD c ^^^ lookup aesMul9 d,
     lookup aesMul9 a ^^^ lookup aesMulE b ^^^ lookup aesMulB c ^^^ lookup aesMulD d,
     lookup aesMulD a ^^^ lookup aesMul9 b ^^^ lookup aesMulE c ^^^ lookup aesMulB d,
     lookup aesMulB a ^^^ lookup aesMulD b ^^^ lookup aesMul9 c ^^^ lookup aesMulE d⟩

def encRound (words : List Column) (s : Block) (round : Nat) : Block :=
  addRoundKey words round ((shiftRows (subBytes s)).map mixColumn)

def decRound (words : List Column) (s : Block) (round : Nat) : Block :=
  (addRoundKey words round (invSubBytes (invShiftRows s))).map invMixColumn

def numberOfRound (key : List UInt8) : Nat := key.length / 4 + 6

def rtAesEncrypt (key plain : List UInt8) : List UInt8 :=
  let words := rtAesKeyExpansion key
  let n := numberOfRound key
  let s := run (encRound words) (addRoundKey words 0 (ofBytes plain)) (range' 1 (n - 1))
  (addRoundKey words n (shiftRows (subBytes s))).bytes

def rtAesDecrypt (key cipher : List UInt8) : List UInt8 :=
  let words := rtAesKeyExpansion key
  let n := numberOfRound key
  let s := run (decRound words) (addRoundKey words n (ofBytes cipher)) (range' 1 (n - 1)).reverse
  (addRoundKey words 0 (invSubBytes (invShiftRows s))).bytes

section Bytes
variable (x y : UInt8)

theorem xorLeftComm (z) : x ^^^ (y ^^^ z) = y ^^^ (x ^^^ z) := by
  rw [← UInt8.xor_assoc,UInt8.xor_comm x y,UInt8.xor_assoc]

def xtime : UInt8 := (x <<< 1) ^^^ (if x.toBitVec.msb then 0x1b else 0)

theorem xtimeAdd : xtime (x ^^^ y) = xtime x ^^^ xtime y := by
  have shift : (x ^^^ y) <<< 1 = (x <<< 1) ^^^ (y <<< 1) := by
    apply UInt8.toBitVec_inj.mp
    simp [BitVec.shiftLeft_xor_distrib]
  simp only [xtime,shift,UInt8.toBitVec_xor,BitVec.msb_xor]
  cases x.toBitVec.msb <;> cases y.toBitVec.msb <;>
    simp [UInt8.xor_assoc,UInt8.xor_comm,xorLeftComm]

end Bytes

def tabulated (f : UInt8 → UInt8) : List UInt8 := (range 256).map fun n => f (UInt8.ofNat n)

theorem lookupTable {table f} (same : table = tabulated f) (x) : lookup table x = f x := by
  have inside : x.toNat < (range 256).length := by simpa using x.toNat_lt
  rw [lookup,same,tabulated,getD_eq_getElem?_getD,getElem?_map,getElem?_eq_getElem inside]
  simp

theorem tablesChecked : aesMul2 = tabulated xtime ∧ aesMul3 = tabulated (fun x => xtime x ^^^ x) ∧
      aesMul9 = tabulated (fun x => xtime (xtime (xtime x)) ^^^ x) ∧
      aesMulB = tabulated (fun x => xtime (xtime (xtime x)) ^^^ xtime x ^^^ x) ∧
      aesMulD = tabulated (fun x => xtime (xtime (xtime x)) ^^^ xtime (xtime x) ^^^ x) ∧
      aesMulE = tabulated (fun x => xtime (xtime (xtime x)) ^^^ xtime (xtime x) ^^^ xtime x) := by decide +kernel

theorem lookupMul2 (x) : lookup aesMul2 x = xtime x := lookupTable tablesChecked.1 x

theorem lookupMul3 (x) : lookup aesMul3 x = xtime x ^^^ x := lookupTable tablesChecked.2.1 x

theorem lookupMul9 (x) : lookup aesMul9 x = xtime (xtime (xtime x)) ^^^ x :=
  lookupTable tablesChecked.2.2.1 x

theorem lookupMulB (x) : lookup aesMulB x = xtime (xtime (xtime x)) ^^^ xtime x ^^^ x :=
  lookupTable tablesChecked.2.2.2.1 x

theorem lookupMulD (x) : lookup aesMulD x = xtime (xtime (xtime x)) ^^^ xtime (xtime x) ^^^ x :=
  lookupTable tablesChecked.2.2.2.2.1 x

theorem lookupMulE (x) : lookup aesMulE x = xtime (xtime (xtime x)) ^^^ xtime (xtime x) ^^^ xtime x :=
  lookupTable tablesChecked.2.2.2.2.2 x

theorem coefficientOne (x) : lookup aesMulE (lookup aesMul2 x) ^^^ lookup aesMulB x ^^^ lookup aesMulD x ^^^
    lookup aesMul9 (lookup aesMul3 x) = x := by
  simp only [lookupMul2,lookupMul3,lookupMul9,lookupMulB,lookupMulD,lookupMulE,xtimeAdd]
  simp [UInt8.xor_assoc,UInt8.xor_comm,xorLeftComm]

theorem coefficientTwo (x) : lookup aesMulE (lookup aesMul3 x) ^^^ lookup aesMulB (lookup aesMul2 x) ^^^
    lookup aesMulD x ^^^ lookup aesMul9 x = 0 := by
  simp only [lookupMul2,lookupMul3,lookupMul9,lookupMulB,lookupMulD,lookupMulE,xtimeAdd]
  simp [UInt8.xor_assoc,UInt8.xor_comm,xorLeftComm]

theorem coefficientThree (x) : lookup aesMulE x ^^^ lookup aesMulB (lookup aesMul3 x) ^^^
    lookup aesMulD (lookup aesMul2 x) ^^^ lookup aesMul9 x = 0 := by
  simp only [lookupMul2,lookupMul3,lookupMul9,lookupMulB,lookupMulD,lookupMulE,xtimeAdd]
  simp [UInt8.xor_assoc,UInt8.xor_comm,xorLeftComm]

theorem coefficientFour (x) : lookup aesMulE x ^^^ lookup aesMulB x ^^^ lookup aesMulD (lookup aesMul3 x) ^^^
    lookup aesMul9 (lookup aesMul2 x) = 0 := by
  simp only [lookupMul2,lookupMul3,lookupMul9,lookupMulB,lookupMulD,lookupMulE,xtimeAdd]
  simp [UInt8.xor_assoc,UInt8.xor_comm,xorLeftComm]

section Linear
variable (x y : UInt8)

theorem mul9Add : lookup aesMul9 (x ^^^ y) = lookup aesMul9 x ^^^ lookup aesMul9 y := by
  simp only [lookupMul9,xtimeAdd]
  ac_rfl

theorem mulBAdd : lookup aesMulB (x ^^^ y) = lookup aesMulB x ^^^ lookup aesMulB y := by
  simp only [lookupMulB,xtimeAdd]
  ac_rfl

theorem mulDAdd : lookup aesMulD (x ^^^ y) = lookup aesMulD x ^^^ lookup aesMulD y := by
  simp only [lookupMulD,xtimeAdd]
  ac_rfl

theorem mulEAdd : lookup aesMulE (x ^^^ y) = lookup aesMulE x ^^^ lookup aesMulE y := by
  simp only [lookupMulE,xtimeAdd]
  ac_rfl

end Linear

theorem invMixMixFirst (c) : (invMixColumn (mixColumn c)).r0 = c.r0 := by
  obtain ⟨a,b,c,d⟩ := c
  simp only [mixColumn,invMixColumn,mul9Add,mulBAdd,mulDAdd,mulEAdd]
  have one := coefficientOne a
  have two := coefficientTwo b
  have three := coefficientThree c
  have four := coefficientFour d
  calc
    _ = (lookup aesMulE (lookup aesMul2 a) ^^^ lookup aesMulB a ^^^ lookup aesMulD a ^^^
          lookup aesMul9 (lookup aesMul3 a)) ^^^
        (lookup aesMulE (lookup aesMul3 b) ^^^ lookup aesMulB (lookup aesMul2 b) ^^^ lookup aesMulD b ^^^
          lookup aesMul9 b) ^^^
        (lookup aesMulE c ^^^ lookup aesMulB (lookup aesMul3 c) ^^^ lookup aesMulD (lookup aesMul2 c) ^^^
          lookup aesMul9 c) ^^^
        (lookup aesMulE d ^^^ lookup aesMulB d ^^^ lookup aesMulD (lookup aesMul3 d) ^^^
          lookup aesMul9 (lookup aesMul2 d)) := by ac_rfl
    _ = a := by rw [one,two,three,four,UInt8.xor_zero,UInt8.xor_zero,UInt8.xor_zero]

def Column.rotate (c : Column) : Column := ⟨c.r1,c.r2,c.r3,c.r0⟩

theorem mixRotate (c) : mixColumn c.rotate = (mixColumn c).rotate := by
  simp only [mixColumn,Column.rotate,Column.mk.injEq]
  refine ⟨?_,?_,?_,?_⟩ <;> ac_rfl

theorem invMixRotate (c) : invMixColumn c.rotate = (invMixColumn c).rotate := by
  simp only [invMixColumn,Column.rotate,Column.mk.injEq]
  refine ⟨?_,?_,?_,?_⟩ <;> ac_rfl

theorem invMixMix (c) : invMixColumn (mixColumn c) = c := by
  have r0 := invMixMixFirst c
  have r1 := invMixMixFirst c.rotate
  have r2 := invMixMixFirst c.rotate.rotate
  have r3 := invMixMixFirst c.rotate.rotate.rotate
  simp only [mixRotate,invMixRotate] at r1 r2 r3
  exact Column.ext r0 r1 r2 r3

theorem sboxChecked : ∀ e ∈ aesSboxEnc.zipIdx, lookup aesSboxDec e.1 = UInt8.ofNat e.2 := by decide +kernel

theorem sboxDecEnc (x) : lookup aesSboxDec (lookup aesSboxEnc x) = x := by
  have size : aesSboxEnc.length = 256 := by decide +kernel
  have inside : x.toNat < aesSboxEnc.length := by
    rw [size]
    exact x.toNat_lt
  have entry : (aesSboxEnc.getD x.toNat 0,x.toNat) ∈ aesSboxEnc.zipIdx := by
    rw [mem_zipIdx_iff_getElem?,getD_eq_getElem?_getD,getElem?_eq_getElem inside]
    rfl
  rw [lookup.eq_def aesSboxEnc,sboxChecked _ entry,UInt8.ofNat_toNat]

theorem invSubSub (s) : invSubBytes (subBytes s) = s := by
  simp [invSubBytes,subBytes,Block.map,Column.map,sboxDecEnc]

theorem invShiftShift (s) : invShiftRows (shiftRows s) = s := rfl

theorem addTwice (words round s) : addRoundKey words round (addRoundKey words round s) = s := by
  simp [addRoundKey,Column.add]

theorem invMixMixColumns (s : Block) : (s.map mixColumn).map invMixColumn = s := by
  simp [Block.map,invMixMix]

theorem decRoundEncRound (words s round) :
    decRound words (shiftRows (subBytes (encRound words s round))) round = shiftRows (subBytes s) := by
  rw [decRound,invShiftShift,invSubSub,encRound,addTwice,invMixMixColumns]

theorem ofBytesBytes (s) : ofBytes s.bytes = s := rfl

theorem bytesOfBytes : ∀ {bytes : List UInt8}, bytes.length = 16 → (ofBytes bytes).bytes = bytes
  | [_,_,_,_,_,_,_,_,_,_,_,_,_,_,_,_],_ => rfl

theorem aesEncryptLength (key plain) : (rtAesEncrypt key plain).length = 16 := rfl

theorem aesDecryptLength (key cipher) : (rtAesDecrypt key cipher).length = 16 := rfl

theorem aesDecryptEncrypt (key) {plain} (length : plain.length = 16) :
    rtAesDecrypt key (rtAesEncrypt key plain) = plain := by
  have rounds : run (decRound (rtAesKeyExpansion key)) (shiftRows (subBytes (run (encRound (rtAesKeyExpansion key))
      (addRoundKey (rtAesKeyExpansion key) 0 (ofBytes plain)) (range' 1 (numberOfRound key - 1)))))
      (range' 1 (numberOfRound key - 1)).reverse =
      shiftRows (subBytes (addRoundKey (rtAesKeyExpansion key) 0 (ofBytes plain))) :=
    runUndo (fun s => shiftRows (subBytes s)) (fun _ => True) (fun _ _ _ _ => trivial)
      (fun s round _ _ => decRoundEncRound _ s round) trivial
  simp only [rtAesDecrypt,rtAesEncrypt,ofBytesBytes,addTwice,rounds,invShiftShift,invSubSub]
  exact bytesOfBytes length

theorem aesEncryptDecrypt (key) {cipher} (length : cipher.length = 16) :
    rtAesEncrypt key (rtAesDecrypt key cipher) = cipher := by
  have blocks : Finite {block : List UInt8 // block.length = 16} := finite_length_eq UInt8 16
  have injective : Function.Injective
      (fun block : {block : List UInt8 // block.length = 16} =>
        (⟨rtAesEncrypt key block.1,aesEncryptLength key block.1⟩ : {block : List UInt8 // block.length = 16})) := by
    intro a b same
    have texts : rtAesEncrypt key a.1 = rtAesEncrypt key b.1 := congrArg Subtype.val same
    apply Subtype.ext
    rw [← aesDecryptEncrypt key a.2,texts,aesDecryptEncrypt key b.2]
  obtain ⟨plain,encrypted⟩ := Finite.injective_iff_surjective.mp injective ⟨cipher,length⟩
  have text : rtAesEncrypt key plain.1 = cipher := congrArg Subtype.val encrypted
  rw [← text,aesDecryptEncrypt key plain.2]

theorem expandLength (nk words indices) :
    (run (expandWord nk) words indices).length = words.length + indices.length := by
  induction indices generalizing words with
  | nil => rfl
  | cons i rest ih =>
    have one : (expandWord nk words i).length = words.length + 1 := by simp [expandWord]
    have whole := ih (expandWord nk words i)
    rw [one] at whole
    rwa [length_cons,← Nat.add_assoc,Nat.add_right_comm]

theorem keyExpansionLength (key) : (rtAesKeyExpansion key).length = 4 * (numberOfRound key + 1) := by
  unfold rtAesKeyExpansion numberOfRound
  rw [expandLength,length_map,length_range,length_range']
  omega

def aesBlockSizes : Nat := 16

def aesKeyLength (n : Nat) : Prop := n = 16 ∨ n = 24 ∨ n = 32

instance aesKeyLengthDecidable (n : Nat) : Decidable (aesKeyLength n) :=
  inferInstanceAs (Decidable (n = 16 ∨ n = 24 ∨ n = 32))

structure BlockBuffer where
  bytes : List UInt8
  size : Nat
  deriving DecidableEq, Repr

def blockCall (rounds : List UInt8 → List UInt8 → List UInt8) (allocated : Bool) (key block : List UInt8)
    (out : BlockBuffer) : BlockBuffer :=
  if block.length ≠ aesBlockSizes then out
  else if ¬ aesKeyLength key.length then out
  else if out.size < aesBlockSizes then out
  else if !allocated then out
  else ⟨rounds key block ++ out.bytes.drop aesBlockSizes,aesBlockSizes⟩

def rtAesEncryptCall : Bool → List UInt8 → List UInt8 → BlockBuffer → BlockBuffer := blockCall rtAesEncrypt

def rtAesDecryptCall : Bool → List UInt8 → List UInt8 → BlockBuffer → BlockBuffer := blockCall rtAesDecrypt

theorem blockCallDone {rounds key block out}
    (whole : block.length = aesBlockSizes) (length : aesKeyLength key.length) (room : aesBlockSizes ≤ out.size) :
    blockCall rounds true key block out = ⟨rounds key block ++ out.bytes.drop aesBlockSizes,aesBlockSizes⟩ := by
  unfold blockCall
  rw [if_neg (not_not_intro whole),if_neg (not_not_intro length),if_neg (Nat.not_lt.mpr room)]
  rfl

theorem aesCallsInverse (key block : List UInt8) (cipher plain : BlockBuffer) (length : aesKeyLength key.length)
    (whole : block.length = aesBlockSizes) (cipherRoom : aesBlockSizes ≤ cipher.size)
    (plainRoom : aesBlockSizes ≤ plain.size) :
    (rtAesEncryptCall true key block cipher).size = aesBlockSizes ∧
      rtAesDecryptCall true key ((rtAesEncryptCall true key block cipher).bytes.take aesBlockSizes) plain =
        ⟨block ++ plain.bytes.drop aesBlockSizes,aesBlockSizes⟩ ∧
      (rtAesKeyExpansion key).length = 4 * (numberOfRound key + 1) := by
  have encrypted : rtAesEncryptCall true key block cipher = _ := blockCallDone whole length cipherRoom
  have front : (rtAesEncrypt key block ++ cipher.bytes.drop aesBlockSizes).take aesBlockSizes =
      rtAesEncrypt key block := take_left' (aesEncryptLength key block)
  rw [encrypted,front]
  refine ⟨rfl,?_,keyExpansionLength key⟩
  have decrypted : rtAesDecryptCall true key (rtAesEncrypt key block) plain = _ :=
    blockCallDone (aesEncryptLength key block) length plainRoom
  rw [decrypted,aesDecryptEncrypt key whole]

theorem aesCallsInverseZero :
    rtAesDecryptCall true (replicate 24 0)
        ((rtAesEncryptCall true (replicate 24 0) (replicate 16 7) ⟨[],16⟩).bytes.take aesBlockSizes)
        ⟨[],16⟩ = ⟨replicate 16 7,aesBlockSizes⟩ := by
  have calls := aesCallsInverse (replicate 24 0) (replicate 16 7) ⟨[],16⟩ ⟨[],16⟩ (by decide) (by decide)
    (by decide) (by decide)
  rw [calls.2.1]
  rfl

example : rtAesEncrypt ((range 16).map UInt8.ofNat) ((range 16).map fun i => UInt8.ofNat (17 * i)) =
    [0x69,0xc4,0xe0,0xd8,0x6a,0x7b,0x04,0x30,0xd8,0xcd,0xb7,0x80,0x70,0xb4,0xc5,0x5a] := by decide +kernel

end RtmpDriver.Aes
